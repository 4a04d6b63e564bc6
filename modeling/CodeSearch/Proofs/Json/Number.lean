import CodeSearch.Json.Reader
import CodeSearch.Json.Writer
import Mathlib.Data.List.TakeWhile
import Mathlib.Tactic.Common

/-! # Laws of numbers in JSON texts

What is read as a number is made of digits, signs, points and marks of exponents only, and starts
with a digit or a minus sign, so that a text is cut around it in one way. An integer that fits into
64 bits is read back from its digits.
-/

namespace CodeSearch.Json

/-! ## Characters of literals -/

/-- Nothing but characters of numbers. -/
def Numeric (cs : List Char) : Prop :=
  ∀ c ∈ cs, isNumberChar c = true

theorem isNumberChar_digit {c : Char} (digit : c.isDigit = true) : isNumberChar c = true := by
  simp [isNumberChar, digit]

theorem Numeric.cons {c : Char} {cs : List Char} (first : isNumberChar c = true) (h : Numeric cs) :
    Numeric (c :: cs) :=
  List.forall_mem_cons.mpr ⟨first, h⟩

theorem Numeric.of_digits {cs : List Char} (digits : ∀ c ∈ cs, c.isDigit = true) : Numeric cs :=
  fun c inside => isNumberChar_digit (digits c inside)

/-- Only what stands behind the leading digits of a text has to be looked at. -/
theorem Numeric.of_dropWhile {cs : List Char} (h : Numeric (cs.dropWhile Char.isDigit)) :
    Numeric cs := by
  rw [← List.takeWhile_append_dropWhile (p := Char.isDigit) (l := cs)]
  refine List.forall_mem_append.mpr ⟨of_digits fun c inside => ?_, h⟩
  exact List.all_eq_true.mp List.all_takeWhile c inside

theorem numeric_exponent {e : Char} {rest digits : List Char} {down : Bool}
    (mark : (e == 'e' || e == 'E') = true)
    (sign : (match rest with
      | '+' :: digits => (false, digits)
      | '-' :: digits => (true, digits)
      | _ => (false, rest)) = (down, digits))
    (written : ∀ c ∈ digits, c.isDigit = true) : Numeric (e :: rest) := by
  have first : isNumberChar e = true := by
    rw [isNumberChar, Bool.or_assoc, mark, Bool.or_true]
  refine .cons first ?_
  split at sign
  · cases sign
    exact .cons rfl (.of_digits written)
  · cases sign
    exact .cons rfl (.of_digits written)
  · cases sign
    exact .of_digits written

theorem Literal.ofChars?_numeric {cs : List Char} {l : Literal}
    (read : Literal.ofChars? cs = some l) :
    Numeric cs ∧ ∃ first rest, cs = first :: rest ∧ (first.isDigit || first == '-') = true := by
  unfold Literal.ofChars? at read
  split at read
  rename_i negative unsigned sign
  extract_lets whole after at read
  split at read
  · cases read
  rename_i proper
  split at read
  rename_i fraction tail point
  split at read
  · cases read
  have ofTail : Numeric tail := by
    split at read
    · exact nofun
    · split at read
      · rename_i mark
        split at read
        rename_i down digits exponent
        split at read
        · cases read
        · rename_i written
          simp only [Bool.or_eq_true, not_or, Bool.not_eq_true, Bool.not_eq_false',
            List.all_eq_true] at written
          exact numeric_exponent mark exponent written.2
      · cases read
  have ofUnsigned : Numeric unsigned := by
    refine .of_dropWhile ?_
    change Numeric after
    clear_value after
    split at point
    · cases point
      exact .cons rfl (.of_dropWhile ofTail)
    · cases point
      exact ofTail
  split at sign
  · cases sign
    exact ⟨.cons rfl ofUnsigned, _, _, rfl, Bool.or_true _⟩
  · cases sign
    refine ⟨ofUnsigned, ?_⟩
    cases start : cs with
    | nil => exact absurd (by simp [whole, start]) proper
    | cons first rest =>
        refine ⟨first, rest, rfl, ?_⟩
        cases digit : first.isDigit with
        | true => rfl
        | false => exact absurd (by simp [whole, start, digit]) proper

/-- What is read as a number is an integer or a float. -/
theorem number?_cases {cs : List Char} {v : Json} (read : number? cs = some v) :
    (∃ n, v = .int n) ∨ ∃ x, v = .float x := by
  have ofFloat {l : Literal} (read : l.float?.map float = some v) : ∃ x, v = .float x := by
    obtain ⟨x, -, rfl⟩ := Option.map_eq_some_iff.mp read
    exact ⟨x, rfl⟩
  unfold number? at read
  obtain ⟨l, -, read⟩ := Option.bind_eq_some_iff.mp read
  split at read
  · simp only at read
    split at read
    · split at read
      · exact .inl ⟨_, (Option.some.inj read).symm⟩
      · exact .inr (ofFloat read)
    · split at read
      · exact .inl ⟨_, (Option.some.inj read).symm⟩
      · exact .inr (ofFloat read)
  · exact .inr (ofFloat read)

theorem number?_numeric {cs : List Char} {v : Json} (read : number? cs = some v) :
    Numeric cs ∧ ∃ first rest, cs = first :: rest ∧ (first.isDigit || first == '-') = true := by
  obtain ⟨l, literal, -⟩ := Option.bind_eq_some_iff.mp read
  exact Literal.ofChars?_numeric literal

/-! ## Integers -/

theorem natOf_toDigits (n : Nat) : Decimal.natOf (Nat.toDigits 10 n) = n := by
  calc
    Decimal.natOf (Nat.toDigits 10 n) = Nat.ofDigitChars 10 (Nat.toDigits 10 n) 0 := by
      simp only [Decimal.natOf, Nat.ofDigitChars_eq_foldl, Nat.mul_comm]
    _ = n := Nat.ofDigitChars_ten_toDigits

/-- The digits of a positive number do not start with a zero. -/
theorem toDigits_head (n : Nat) (positive : 0 < n) : (Nat.toDigits 10 n).head? ≠ some '0' := by
  induction n using Nat.strongRecOn with
  | _ n ih =>
      by_cases small : n < 10
      · rw [Nat.toDigits_of_lt_base small]
        have digit : ∀ d < 10, 0 < d → d.digitChar ≠ '0' := by decide
        exact fun zero => digit n small positive (Option.some.inj zero)
      · have shorter : 0 < n / 10 := by omega
        rw [Nat.toDigits_of_base_le (by decide) (by omega), List.head?_append,
          Option.or_of_isSome (List.isSome_head?.mpr Nat.toDigits_ne_nil)]
        exact ih (n / 10) (by omega) shorter

theorem toDigits_proper (n : Nat) : ((Nat.toDigits 10 n).isEmpty ||
    ((Nat.toDigits 10 n).head? == some '0' && 1 < (Nat.toDigits 10 n).length)) = false := by
  have some : (Nat.toDigits 10 n).isEmpty = false :=
    List.isEmpty_eq_false_iff.mpr Nat.toDigits_ne_nil
  rw [some, Bool.false_or]
  cases n with
  | zero => rfl
  | succ n =>
      rw [beq_eq_false_iff_ne.mpr (toDigits_head (n + 1) (Nat.succ_pos n)), Bool.false_and]

theorem Literal.ofChars?_whole (negative : Bool) (n : Nat) :
    Literal.ofChars? (Decimal.signOf negative ++ Nat.toDigits 10 n) =
      some ⟨negative, Nat.toDigits 10 n, none, none⟩ := by
  have digits : ∀ c ∈ Nat.toDigits 10 n, c.isDigit = true := fun c inside =>
    Nat.isDigit_of_mem_toDigits (by decide) (by decide) inside
  have all : (Nat.toDigits 10 n).takeWhile Char.isDigit = Nat.toDigits 10 n :=
    List.takeWhile_eq_self_iff.mpr digits
  have behind : (Nat.toDigits 10 n).dropWhile Char.isDigit = [] :=
    List.dropWhile_eq_nil_iff.mpr digits
  have unsigned : ∀ rest, Nat.toDigits 10 n ≠ '-' :: rest := by
    intro rest minus
    have digit := digits '-' (minus ▸ List.mem_cons_self)
    cases digit
  have proper := toDigits_proper n
  cases negative with
  | true => simp [Literal.ofChars?, Decimal.signOf, all, behind, proper]
  | false => simp [Literal.ofChars?, Decimal.signOf, all, behind, proper]

theorem toList_toString (n : Int) :
    (toString n).toList = Decimal.signOf (n < 0) ++ Nat.toDigits 10 n.natAbs := by
  cases n with
  | ofNat m => exact Nat.toList_repr
  | negSucc m =>
      have minus : toString (Int.negSucc m) = "-" ++ (m + 1).repr := rfl
      rw [minus, String.toList_append, Nat.toList_repr, decide_eq_true (Int.negSucc_lt_zero m)]
      rfl

/-- An integer of 64 bits is read back from its text. -/
theorem number?_int {n : Int} (low : -((Nat.pow 2 63 : Nat) : Int) ≤ n) (high : n ≤ maxWord) :
    number? (toString n).toList = some (.int n) := by
  rw [toList_toString, number?, Literal.ofChars?_whole]
  simp only [bind, Option.bind, natOf_toDigits]
  by_cases negative : n < 0
  · have inside : (0 < n.natAbs && n.natAbs ≤ Nat.pow 2 63) = true := by
      simp only [Bool.and_eq_true, decide_eq_true_eq]
      omega
    have back : -(n.natAbs : Int) = n := by omega
    simp only [decide_eq_true negative, if_true, inside, back]
  · have inside : n.natAbs ≤ maxWord := by omega
    have back : (n.natAbs : Int) = n := by omega
    simp only [decide_eq_false negative, Bool.false_eq_true, if_false, if_pos inside, back]

end CodeSearch.Json
