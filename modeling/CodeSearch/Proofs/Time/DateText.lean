import CodeSearch.Proofs.Time.Calendar
import CodeSearch.Time.DateText

/-! # Dates are read as they are written

A date of four digits for the year and two for month and day is read back as that date, and is no
instant: what it lacks is the time of day. The readers take digits one by one, and so each of them
has one lemma about a numeral of the width that it looks for.
-/

namespace CodeSearch.Time

/-! ## Numerals -/

/-- Exactly so many digits that write a number. -/
structure Numeral (width n : Nat) (digits : List Char) : Prop where
  length : digits.length = width
  digit : ∀ c ∈ digits, c.isDigit = true
  value : Nat.ofDigitChars 10 digits 0 = n

theorem digit_bounds {c : Char} (digit : c.isDigit = true) : 48 ≤ c.toNat ∧ c.toNat ≤ 57 := by
  simp only [Char.isDigit, Bool.and_eq_true, decide_eq_true_eq] at digit
  exact ⟨UInt32.le_iff_toNat_le.mp digit.1, UInt32.le_iff_toNat_le.mp digit.2⟩

theorem digit_visible {c : Char} (digit : c.isDigit = true) : Text.isBlank c = false := by
  have bounds := digit_bounds digit
  simp only [Text.isBlank, Bool.or_eq_false_iff, Bool.and_eq_false_iff, decide_eq_false_iff_not,
    beq_eq_false_iff_ne]
  omega

theorem padded_numeral {width n : Nat} (wide : 0 < width) (few : n < 10 ^ width) :
    Numeral width n (Instant.padded width n).toList := by
  have length : (Nat.toDigits 10 n).length ≤ width :=
    (Nat.length_toDigits_le_iff (by decide) wide).mpr few
  have digits : (Instant.padded width n).toList =
      List.replicate (width - (Nat.toDigits 10 n).length) '0' ++ Nat.toDigits 10 n :=
    String.toList_ofList
  rw [digits]
  refine ⟨by rw [List.length_append, List.length_replicate]; omega, fun c inside => ?_, ?_⟩
  · rcases List.mem_append.mp inside with zero | digit
    · rw [List.eq_of_mem_replicate zero]
      rfl
    · exact Nat.isDigit_of_mem_toDigits (by decide) (by decide) digit
  · rw [Nat.ofDigitChars_append, Nat.ofDigitChars_replicate_zero, Nat.mul_zero,
      Nat.ofDigitChars_ten_toDigits]

section

variable {width n : Nat} {digits rest : List Char}

theorem Numeral.cons (numeral : Numeral (width + 1) n digits) :
    ∃ c cs, digits = c :: cs ∧ c.isDigit = true := by
  cases digits with
  | nil => exact absurd numeral.length (by simp)
  | cons c cs => exact ⟨c, cs, rfl, numeral.digit c List.mem_cons_self⟩

theorem readDigits_digits (all : ∀ c ∈ digits, c.isDigit = true) (value : Nat) :
    readDigits digits.length (digits ++ rest) value =
      some (Nat.ofDigitChars 10 digits value, rest) := by
  induction digits generalizing value with
  | nil => rfl
  | cons c cs ih =>
      obtain ⟨digit, others⟩ := List.forall_mem_cons.mp all
      rw [List.length_cons, List.cons_append, readDigits, if_pos digit, ih others,
        Nat.ofDigitChars_cons, Nat.mul_comm]

theorem Numeral.readDigits (numeral : Numeral width n digits) :
    readDigits width (digits ++ rest) 0 = some (n, rest) := by
  have read : _ = some (_, rest) := readDigits_digits numeral.digit 0
  rwa [numeral.length, numeral.value] at read

namespace DateText

theorem takeNumber_digits (all : ∀ c ∈ digits, c.isDigit = true) (value : Nat)
    (fits : (value + 1) * 10 ^ digits.length ≤ maxNumber + 1) :
    takeNumber digits.length value (digits ++ rest) =
      .ok (Nat.ofDigitChars 10 digits value, rest) := by
  induction digits generalizing value with
  | nil => rfl
  | cons c cs ih =>
      obtain ⟨digit, others⟩ := List.forall_mem_cons.mp all
      have bounds := digit_bounds digit
      have zero : '0'.toNat = 48 := rfl
      have next : (value * 10 + (c.toNat - '0'.toNat) + 1) * 10 ^ cs.length ≤ maxNumber + 1 := by
        refine Nat.le_trans ?_ fits
        rw [List.length_cons, Nat.pow_succ', ← Nat.mul_assoc]
        exact Nat.mul_le_mul_right _ (by omega)
      have small : ¬ maxNumber < value * 10 + (c.toNat - '0'.toNat) := by
        have := Nat.le_mul_of_pos_right (value * 10 + (c.toNat - '0'.toNat) + 1)
          (Nat.pow_pos (a := 10) (n := cs.length) (by decide))
        omega
      rw [List.length_cons, List.cons_append, takeNumber, if_pos digit, if_neg small,
        ih others _ next, Nat.ofDigitChars_cons, Nat.mul_comm]

theorem number_numeral (numeral : Numeral (width + 1) n digits) (short : width ≤ 3) :
    number (width + 1) (digits ++ rest) = .ok (n, rest) := by
  obtain ⟨c, cs, rfl, digit⟩ := numeral.cons
  have fits : (0 + 1) * 10 ^ (c :: cs).length ≤ maxNumber + 1 := by
    have power : 10 ^ (width + 1) ≤ 10 ^ 4 := Nat.pow_le_pow_right (by decide) (by omega)
    have room : 10 ^ 4 ≤ maxNumber + 1 := by decide
    rw [numeral.length]
    omega
  have read : _ = Except.ok (_, rest) := takeNumber_digits numeral.digit 0 fits
  rw [numeral.length, numeral.value] at read
  rw [List.cons_append] at read ⊢
  rw [number, if_pos digit, read]

theorem dropWhile_numeral (numeral : Numeral (width + 1) n digits) :
    (digits ++ rest).dropWhile Text.isBlank = digits ++ rest := by
  obtain ⟨c, cs, rfl, digit⟩ := numeral.cons
  rw [List.cons_append, List.dropWhile_cons_of_neg (by simp [digit_visible digit])]

theorem year_numeral (numeral : Numeral 4 n digits) :
    year (digits ++ rest) = .ok ((n : Int), rest) := by
  have read : _ = Except.ok (n, rest) := number_numeral numeral (by decide)
  obtain ⟨c, cs, rfl, digit⟩ := numeral.cons
  have bounds := digit_bounds digit
  rw [year, dropWhile_numeral numeral]
  split
  · rename_i sign
    cases sign
    exact absurd bounds (by decide)
  · rename_i sign
    cases sign
    exact absurd bounds (by decide)
  · rw [read]
    rfl

theorem upTo_numeral {last : Nat} (numeral : Numeral 2 n digits) (first : 1 ≤ n) (le : n ≤ last) :
    upTo last (digits ++ rest) = .ok (n, rest) := by
  rw [upTo, dropWhile_numeral numeral, number_numeral numeral (by decide)]
  simp [bind, Except.bind, pure, Except.pure, first, le]

end DateText

end

/-! ## Dates -/

namespace Date

/-- A date with four digits for the year and two for the month and the day. -/
def written (d : Date) : String :=
  Text.join "-" [Instant.padded 4 d.year.toNat, Instant.padded 2 d.month, Instant.padded 2 d.day]

/-- The date exists, and four digits write its year. -/
def IsPlain (d : Date) : Prop :=
  d.isValid = true ∧ 0 ≤ d.year ∧ d.year ≤ 9999

instance (d : Date) : Decidable d.IsPlain :=
  inferInstanceAs (Decidable (_ ∧ _))

section

variable {d : Date}

theorem daysInMonth_le (year : Int) (month : Nat) : daysInMonth year month ≤ 31 := by
  unfold daysInMonth
  split <;> try split
  all_goals decide

theorem written_parts (plain : d.IsPlain) : ∃ year month day,
    d.written.toList = year ++ '-' :: (month ++ '-' :: (day ++ [])) ∧
      Numeral 4 d.year.toNat year ∧ Numeral 2 d.month month ∧ Numeral 2 d.day day := by
  obtain ⟨valid, low, high⟩ := plain
  obtain ⟨⟨-, month⟩, -, day⟩ := isValid_iff.mp valid
  have days := daysInMonth_le d.year d.month
  refine ⟨_, _, _, ?_, padded_numeral (by decide) (by omega), padded_numeral (by decide) (by omega),
    padded_numeral (by decide) (by omega)⟩
  simp [written, Text.join]

theorem written_chars (plain : d.IsPlain) : ∀ c ∈ d.written.toList, c.isDigit = true ∨ c = '-' := by
  obtain ⟨year, month, day, text, inYear, inMonth, inDay⟩ := written_parts plain
  rw [text]
  intro c inside
  simp only [List.mem_append, List.mem_cons, List.append_nil] at inside
  rcases inside with digit | rfl | digit | rfl | digit
  · exact .inl (inYear.digit c digit)
  · exact .inr rfl
  · exact .inl (inMonth.digit c digit)
  · exact .inr rfl
  · exact .inl (inDay.digit c digit)

theorem ofText_written (plain : d.IsPlain) : ofText d.written = .ok d := by
  obtain ⟨year, month, day, text, inYear, inMonth, inDay⟩ := written_parts plain
  obtain ⟨valid, low, high⟩ := plain
  obtain ⟨months, one, days⟩ := isValid_iff.mp valid
  have hyphen (cs : List Char) : DateText.hyphen ('-' :: cs) = .ok cs := rfl
  have small : DateText.checkYear d.year = .ok () := if_neg (by simp; omega)
  have same : (d.year.toNat : Int) = d.year := Int.toNat_of_nonneg low
  have inside : (d.isValid && 0 ≤ d.year + Instant.lastYear + 1 && d.year ≤ Instant.lastYear) =
      true := by
    unfold Instant.lastYear
    simp only [valid, Bool.true_and, Bool.and_eq_true, decide_eq_true_eq]
    omega
  have short := days.trans (daysInMonth_le d.year d.month)
  simp only [ofText, text, DateText.year_numeral inYear, bind, Except.bind, small, hyphen,
    DateText.upTo_numeral inMonth months.1 months.2, DateText.upTo_numeral inDay one short, same,
    List.isEmpty_nil, inside, if_true]
  rfl

theorem ofRfc3339?_written (plain : d.IsPlain) : Instant.ofRfc3339? d.written = none := by
  obtain ⟨year, month, day, text, inYear, inMonth, inDay⟩ := written_parts plain
  have hyphen (cs : List Char) : expect (· == '-') ('-' :: cs) = some cs := rfl
  simp only [Instant.ofRfc3339?, text, inYear.readDigits, hyphen, inMonth.readDigits,
    inDay.readDigits, bind, Option.bind]
  rfl

end

end Date

end CodeSearch.Time
