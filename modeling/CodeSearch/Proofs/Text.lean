import CodeSearch.Text.Blank
import CodeSearch.Text.Case
import CodeSearch.Text.Split
import Mathlib.Data.List.TakeWhile
import Mathlib.Tactic.Common

/-! # Laws of texts

Lowering a text does not see the case of its ASCII letters, although it looks around a capital sigma
at what else there is: an ASCII letter is cased in both forms. So texts that differ in the case of
ASCII letters only have one lowercase form, and are found under one key. Trimming keeps everything
from the first to the last character that is not blank, and a text is cut at the first mark. Two
texts with a mark in between have the pieces of both. What is dropped from the beginning of a text,
or from its end, is all there is of it.
-/

namespace CodeSearch.Text

/-! ## Letter case -/

/-- Two characters that lowering a text does not tell from each other. -/
structure SameLowered (c d : Char) : Prop where
  form : lowerChar c = lowerChar d
  sigma : c = 'Σ' ↔ d = 'Σ'
  ignorable : Table.holds Table.caseIgnorable c.toNat = Table.holds Table.caseIgnorable d.toNat
  cased : Table.holds Table.cased c.toNat = Table.holds Table.cased d.toNat

/-- Only the capitals of ASCII have another form. -/
theorem toLower_cases (c : Char) : c.toLower = c ∨ ∃ n < 26, c = Char.ofNat (65 + n) := by
  unfold Char.toLower
  split
  · rename_i capital
    have low : 65 ≤ c.toNat := UInt32.le_iff_toNat_le.mp capital.1
    have high : c.toNat ≤ 90 := UInt32.le_iff_toNat_le.mp capital.2
    refine .inr ⟨c.toNat - 65, by omega, ?_⟩
    rw [Nat.add_sub_cancel' low, Char.ofNat_toNat]
  · exact .inl rfl

/-- Runs that begin beyond a code point do not hold it. -/
theorem holds_below {n bound : Nat} (less : n < bound) (table : List (Nat × Nat × Nat)) :
    Table.holds (table.filter (·.1 < bound)) n = Table.holds table n := by
  unfold Table.holds
  rw [List.any_filter]
  refine congrArg table.any (funext fun run => ?_)
  by_cases first : run.1 ≤ n
  · simp [first, Nat.lt_of_le_of_lt first less]
  · simp [first]

/-- The case-ignorable signs of ASCII. -/
def ignorableSigns : List (Nat × Nat × Nat) :=
  [(0x27, 0x27, 1), (0x2e, 0x2e, 1), (0x3a, 0x3a, 1), (0x5e, 0x60, 2)]

theorem holds_ignorableSigns {n : Nat} (ascii : n < 128) :
    Table.holds ignorableSigns n = Table.holds Table.caseIgnorable n := by
  have signs : Table.caseIgnorable.filter (·.1 < 128) = ignorableSigns := by decide +kernel
  rw [← signs, holds_below ascii]

theorem toLower_sameLowered (c : Char) : SameLowered c.toLower c := by
  rcases toLower_cases c with same | ⟨n, few, rfl⟩
  · rw [same]
    exact ⟨rfl, Iff.rfl, rfl, rfl⟩
  · have all : ∀ n < 26, (Char.ofNat (65 + n)).toLower.toNat = 97 + n ∧
        (Char.ofNat (65 + n)).toNat = 65 + n ∧
        lowerChar (Char.ofNat (65 + n)).toLower = lowerChar (Char.ofNat (65 + n)) ∧
        ((Char.ofNat (65 + n)).toLower = 'Σ' ↔ Char.ofNat (65 + n) = 'Σ') ∧
        Table.holds ignorableSigns (97 + n) = Table.holds ignorableSigns (65 + n) ∧
        Table.holds Table.cased (97 + n) = Table.holds Table.cased (65 + n) := by decide +kernel
    obtain ⟨low, capital, form, sigma, ignorable, cased⟩ := all n few
    refine ⟨form, sigma, ?_, by rw [low, capital, cased]⟩
    rwa [low, capital, ← holds_ignorableSigns (by omega), ← holds_ignorableSigns (by omega)]

theorem meetsCased_toLower (cs : List Char) : meetsCased (cs.map Char.toLower) = meetsCased cs := by
  induction cs with
  | nil => rfl
  | cons c cs ih =>
      have same := toLower_sameLowered c
      unfold meetsCased at ih ⊢
      by_cases ignorable : Table.holds Table.caseIgnorable c.toNat = true
      · simp only [List.map_cons, List.dropWhile_cons, same.ignorable, ignorable, if_true]
        exact ih
      · simp only [List.map_cons, List.dropWhile_cons, same.ignorable, ignorable]
        exact same.cased

theorem lowerAfter_toLower (before cs : List Char) :
    lowerAfter (before.map Char.toLower) (cs.map Char.toLower) = lowerAfter before cs := by
  induction cs generalizing before with
  | nil => rfl
  | cons c cs ih =>
      have same := toLower_sameLowered c
      rw [List.map_cons, lowerAfter, lowerAfter, meetsCased_toLower, meetsCased_toLower, same.form,
        ← List.map_cons, ih]
      simp only [same.sigma]

theorem lower_asciiLower (s : String) : lower (asciiLower s) = lower s := by
  rw [lower, asciiLower, String.toList_ofList]
  exact congrArg String.ofList (lowerAfter_toLower [] s.toList)

/-- Texts that are equal but for ASCII case are equal in lower case. -/
theorem lower_eq_of_eqIgnoringAsciiCase {a b : String} (same : eqIgnoringAsciiCase a b = true) :
    lower a = lower b := by
  have ascii : asciiLower a = asciiLower b := beq_iff_eq.mp same
  rw [← lower_asciiLower a, ascii, lower_asciiLower]

/-! ## ASCII in lower case -/

def Ascii (cs : List Char) : Prop :=
  ∀ c ∈ cs, c.toNat < 128

/-- A text of ASCII characters without capitals. -/
def Lowered (s : String) : Prop :=
  ∀ c ∈ s.toList, c.toNat < 128 ∧ c.toLower = c

instance decidableLowered (s : String) : Decidable (Lowered s) :=
  List.decidableBAll (fun c : Char => c.toNat < 128 ∧ c.toLower = c) s.toList

/-- A letter in lower case is in ASCII again, and stays as it is. -/
theorem toLower_ascii {c : Char} (ascii : c.toNat < 128) :
    c.toLower.toNat < 128 ∧ c.toLower.toLower = c.toLower := by
  have all : ∀ n < 128, (Char.ofNat n).toLower.toNat < 128 ∧
      (Char.ofNat n).toLower.toLower = (Char.ofNat n).toLower := by decide
  have small := all c.toNat ascii
  rwa [Char.ofNat_toNat] at small

theorem lowerAfter_ascii (before : List Char) {cs : List Char} (ascii : Ascii cs) :
    lowerAfter before cs = cs.map Char.toLower := by
  induction cs generalizing before with
  | nil => rfl
  | cons c cs ih =>
      obtain ⟨first, rest⟩ := List.forall_mem_cons.mp ascii
      have plain : c ≠ 'Σ' := by
        rintro rfl
        exact absurd first (by decide)
      rw [lowerAfter, if_neg plain, lowerChar, if_pos first, ih _ rest]
      rfl

theorem lower_lowered {s : String} (ascii : Ascii s.toList) : Lowered (lower s) := by
  intro c inside
  rw [lower, lowerAfter_ascii [] ascii, String.toList_ofList] at inside
  obtain ⟨d, hd, rfl⟩ := List.mem_map.mp inside
  exact toLower_ascii (ascii d hd)

/-- What is in lower case stays as it is. -/
theorem Lowered.lower_eq {s : String} (lowered : Lowered s) : lower s = s := by
  have same : s.toList.map Char.toLower = s.toList := by
    calc
      s.toList.map Char.toLower = s.toList.map id :=
        List.map_congr_left fun c inside => (lowered c inside).2
      _ = s.toList := List.map_id _
  rw [lower, lowerAfter_ascii [] fun c inside => (lowered c inside).1, same, String.ofList_toList]

/-! ## Trimming and cutting -/

section

variable {s : String}

theorem length_trim (s : String) : (trim s).length ≤ s.length := by
  rw [trim, String.length_ofList, strip, dropEndWhile, List.length_reverse]
  calc
    _ ≤ (s.toList.dropWhile isBlank).reverse.length := (List.dropWhile_suffix _).length_le
    _ = (s.toList.dropWhile isBlank).length := List.length_reverse
    _ ≤ s.toList.length := (List.dropWhile_suffix _).length_le

theorem toList_trim {c : Char} {cs : List Char} (head : s.toList.dropWhile isBlank = c :: cs) :
    isBlank c = false ∧ ∃ rest, (trim s).toList = c :: rest := by
  have visible : isBlank c = false := by
    have first := List.head?_dropWhile_not isBlank s.toList
    rwa [head] at first
  refine ⟨visible, ?_⟩
  rw [trim, String.toList_ofList, strip, head, dropEndWhile, List.reverse_cons,
    List.dropWhile_append]
  split
  · exact ⟨[], by simp [visible]⟩
  · exact ⟨_, List.reverse_append⟩

theorem trim_of_isAllBlank (blank : isAllBlank s = true) : trim s = "" := by
  have none : s.toList.dropWhile isBlank = [] :=
    List.dropWhile_eq_nil_iff.mpr (List.all_eq_true.mp blank)
  rw [trim, strip, none]
  rfl

theorem strip_of_visible {p : Char → Bool} {cs : List Char} (visible : ∀ c ∈ cs, p c = false) :
    strip p cs = cs := by
  have kept {cs : List Char} (visible : ∀ c ∈ cs, p c = false) : cs.dropWhile p = cs := by
    cases cs with
    | nil => rfl
    | cons c cs => simp [visible c List.mem_cons_self]
  have behind : ∀ c ∈ cs.reverse, p c = false := fun c inside => visible c (List.mem_reverse.mp inside)
  rw [strip, dropEndWhile, kept visible, kept behind, List.reverse_reverse]

theorem trim_of_visible (visible : ∀ c ∈ s.toList, isBlank c = false) : trim s = s := by
  rw [trim, strip_of_visible visible, String.ofList_toList]

/-- A text between two characters that are not blank is not trimmed. -/
theorem trim_between {first last : Char} {cs : List Char}
    (between : s.toList = first :: (cs ++ [last])) (starts : isBlank first = false)
    (ends : isBlank last = false) : trim s = s := by
  have whole : strip isBlank (first :: (cs ++ [last])) = first :: (cs ++ [last]) := by
    simp [strip, dropEndWhile, starts, ends]
  rw [trim, between, whole, ← between, String.ofList_toList]

end

theorem cutAt?_append {p : Char → Bool} {cs : List Char} {mark : Char}
    (before : ∀ c ∈ cs, p c = false) (found : p mark = true) (rest : List Char) :
    cutAt? p (cs ++ mark :: rest) = some (cs, rest) := by
  induction cs with
  | nil => exact if_pos found
  | cons c cs ih =>
      obtain ⟨first, others⟩ := List.forall_mem_cons.mp before
      rw [List.cons_append, cutAt?, if_neg (Bool.eq_false_iff.mp first), ih others]
      rfl

theorem of_mem_splitWhere {p : Char → Bool} {cs piece : List Char}
    (inside : piece ∈ splitWhere p cs) : ∀ c ∈ piece, p c = false := by
  induction cs generalizing piece with
  | nil =>
      obtain rfl : piece = [] := List.mem_singleton.mp inside
      exact fun c none => absurd none List.not_mem_nil
  | cons c cs ih =>
      rw [splitWhere] at inside
      split at inside
      · rcases List.mem_cons.mp inside with rfl | later
        · exact fun c none => absurd none List.not_mem_nil
        · exact ih later
      · rename_i kept
        have letter : p c = false := Bool.eq_false_iff.mpr kept
        split at inside
        · rw [List.mem_singleton.mp inside]
          exact List.forall_mem_singleton.mpr letter
        · rename_i first rest pieces
          rcases List.mem_cons.mp inside with rfl | later
          · exact List.forall_mem_cons.mpr ⟨letter, ih (pieces ▸ List.mem_cons_self)⟩
          · exact ih (pieces ▸ List.mem_cons_of_mem _ later)

theorem all_of_splitWhere {p : Char → Bool} {cs : List Char}
    (empty : ∀ piece ∈ splitWhere p cs, piece = []) : ∀ c ∈ cs, p c = true := by
  induction cs with
  | nil => exact fun c none => absurd none List.not_mem_nil
  | cons c cs ih =>
      rw [splitWhere] at empty
      split at empty
      · rename_i separator
        exact List.forall_mem_cons.mpr
          ⟨separator, ih fun piece inside => empty piece (List.mem_cons_of_mem _ inside)⟩
      · split at empty
        · exact absurd (empty _ List.mem_cons_self) (List.cons_ne_nil _ _)
        · exact absurd (empty _ List.mem_cons_self) (List.cons_ne_nil _ _)

theorem splitWhere_eq_splitOnP (p : Char → Bool) (cs : List Char) :
    splitWhere p cs = cs.splitOnP p := by
  induction cs with
  | nil => rfl
  | cons c cs ih =>
      rw [splitWhere, List.splitOnP_cons_eq_if_modifyHead, ih]
      obtain ⟨piece, pieces, split⟩ := List.exists_cons_of_ne_nil (List.splitOnP_ne_nil p cs)
      rw [split]
      rfl

theorem split_eq_splitOn (s : String) (mark : Char) :
    split s mark = (s.toList.splitOn mark).map String.ofList := by
  rw [split, splitWhere_eq_splitOnP, List.splitOn_eq_splitOnP]

/-- Joining two texts with the mark puts the pieces of the one in front of those of the other. -/
theorem split_append {mark : Char} {joint : String} (alone : joint.toList = [mark])
    (a b : String) : split (a ++ joint ++ b) mark = split a mark ++ split b mark := by
  have joined : (a ++ joint ++ b).toList = a.toList ++ mark :: b.toList := by
    simp [String.toList_append, alone]
  simp only [split_eq_splitOn, joined, List.splitOn_append_cons_self, List.map_append]

theorem not_mem_of_mem_split {s piece : String} {mark : Char} (inside : piece ∈ split s mark) :
    mark ∉ piece.toList := by
  obtain ⟨cs, between, rfl⟩ := List.mem_map.mp inside
  rw [String.toList_ofList]
  intro marked
  simpa using of_mem_splitWhere between mark marked

theorem split_of_not_mem {s : String} {mark : Char} (unmarked : mark ∉ s.toList) :
    split s mark = [s] := by
  rw [split_eq_splitOn, List.splitOn_eq_singleton unmarked, List.map_singleton, String.ofList_toList]

theorem dropEndWhile_append {p : Char → Bool} {cs tail : List Char}
    (dropped : ∀ c ∈ tail, p c = true) (kept : ∀ c ∈ cs.getLast?, p c = false) :
    dropEndWhile p (cs ++ tail) = cs := by
  rw [dropEndWhile, List.reverse_append,
    List.dropWhile_append_of_pos fun c inside => dropped c (List.mem_reverse.mp inside)]
  cases turned : cs.reverse with
  | nil => rw [List.dropWhile_nil, ← turned, List.reverse_reverse]
  | cons c rest =>
      have last : c ∈ cs.getLast? := by
        rw [← List.head?_reverse, turned]
        rfl
      rw [List.dropWhile_cons_of_neg (Bool.eq_false_iff.mp (kept c last)), ← turned,
        List.reverse_reverse]

theorem exists_dropEndWhile (p : Char → Bool) (cs : List Char) :
    ∃ tail, cs = dropEndWhile p cs ++ tail ∧ ∀ c ∈ tail, p c = true := by
  refine ⟨(cs.reverse.takeWhile p).reverse, ?_, fun c inside => ?_⟩
  · rw [dropEndWhile, ← List.reverse_append, List.takeWhile_append_dropWhile, List.reverse_reverse]
  · exact List.all_eq_true.mp List.all_takeWhile c (List.mem_reverse.mp inside)

theorem after?_append (start cs : List Char) : after? start (start ++ cs) = some cs := by
  induction start with
  | nil => rfl
  | cons c start ih => rw [List.cons_append, after?, if_pos rfl, ih]

theorem after?_eq_some {start cs rest : List Char} (found : after? start cs = some rest) :
    cs = start ++ rest := by
  induction start generalizing cs with
  | nil => exact Option.some.inj found
  | cons a start ih =>
      cases cs with
      | nil => cases found
      | cons c cs =>
          rw [after?] at found
          split at found
          · rename_i same
            rw [same, ih found, List.cons_append]
          · cases found

theorem isSome_after? {start cs : List Char} :
    (after? start cs).isSome = true ↔ ∃ rest, cs = start ++ rest := by
  constructor
  · intro found
    obtain ⟨rest, found⟩ := Option.isSome_iff_exists.mp found
    exact ⟨rest, after?_eq_some found⟩
  · rintro ⟨rest, rfl⟩
    rw [after?_append]
    rfl

theorem startsWith_iff {s start : String} :
    startsWith s start = true ↔ ∃ rest, s = start ++ rest := by
  rw [startsWith, isSome_after?]
  constructor
  · rintro ⟨rest, text⟩
    exact ⟨String.ofList rest, String.toList_inj.mp (by simpa using text)⟩
  · rintro ⟨rest, rfl⟩
    exact ⟨rest.toList, String.toList_append⟩

theorem dropAll_append (start : List Char) {rest : List Char} (other : after? start rest = none)
    (n fuel : Nat) (enough : n ≤ fuel) :
    dropAll start fuel ((List.replicate n start).flatten ++ rest) = rest := by
  induction n generalizing fuel with
  | zero =>
      cases fuel with
      | zero => rfl
      | succ fuel => simp only [List.replicate_zero, List.flatten_nil, List.nil_append, dropAll, other]
  | succ n ih =>
      obtain ⟨fuel, rfl⟩ := Nat.exists_eq_add_of_le' (Nat.le_trans (Nat.succ_pos n) enough)
      rw [List.replicate_succ, List.flatten_cons, List.append_assoc, dropAll, after?_append]
      exact ih fuel (by omega)

theorem exists_dropAll (start : List Char) (fuel : Nat) (cs : List Char) :
    ∃ n, cs = (List.replicate n start).flatten ++ dropAll start fuel cs := by
  induction fuel generalizing cs with
  | zero => exact ⟨0, rfl⟩
  | succ fuel ih =>
      cases found : after? start cs with
      | none => exact ⟨0, by simp only [dropAll, found, List.replicate_zero, List.flatten_nil,
          List.nil_append]⟩
      | some rest =>
          obtain ⟨n, whole⟩ := ih rest
          refine ⟨n + 1, ?_⟩
          simp only [dropAll, found, List.replicate_succ, List.flatten_cons, List.append_assoc]
          rw [← whole]
          exact after?_eq_some found

theorem toList_trimStartText (s start : String) :
    (trimStartText s start).toList = dropAll start.toList s.toList.length s.toList :=
  String.toList_ofList

theorem trimStartText_eq {s start : String} {n : Nat} {rest : List Char} (some : start ≠ "")
    (text : s.toList = (List.replicate n start.toList).flatten ++ rest)
    (other : after? start.toList rest = none) : (trimStartText s start).toList = rest := by
  have positive : 0 < start.toList.length :=
    List.length_pos_iff.mpr fun none => some (String.toList_eq_nil_iff.mp none)
  have enough : n ≤ s.toList.length := by
    rw [text, List.length_append, List.length_flatten, List.map_replicate, List.sum_replicate_nat]
    exact Nat.le_trans (Nat.le_mul_of_pos_right n positive) (Nat.le_add_right _ _)
  rw [toList_trimStartText]
  rw [text] at enough ⊢
  exact dropAll_append start.toList other n _ enough

theorem cutOnPart?_append {mark : Char} {part cs : List Char} (absent : mark ∉ cs)
    (rest : List Char) :
    cutOnPart? (mark :: part) (cs ++ mark :: (part ++ rest)) = some (cs, rest) := by
  induction cs with
  | nil =>
      rw [List.nil_append, cutOnPart?, ← List.cons_append, after?_append]
  | cons c cs ih =>
      obtain ⟨other, others⟩ := not_or.mp (mt List.mem_cons.mpr absent)
      rw [List.cons_append, cutOnPart?, after?, if_neg other, ih others]
      rfl

end CodeSearch.Text
