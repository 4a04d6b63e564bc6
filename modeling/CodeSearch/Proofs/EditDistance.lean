import CodeSearch.EditDistance
import Mathlib.Order.Bounds.Basic
import Mathlib.Tactic.Common

/-! # The least number of edits

An edit inserts, deletes or replaces one element anywhere in a list. The table is filled from the
front of both lists, so each of its rows holds the distances between reversed beginnings, as the
recursion on the first elements defines them. That recursion counts a shortest sequence of edits:
along one edit the distance to any list changes by at most one. From the count the distance inherits
that it is a metric and the bounds by the lengths.
-/

namespace CodeSearch

variable {α : Type}

/-! ## Edits -/

/-- One edit turns the first list into the second. -/
inductive Edit : List α → List α → Prop where
  | insertion (front back : List α) (x : α) : Edit (front ++ back) (front ++ x :: back)
  | deletion (front back : List α) (x : α) : Edit (front ++ x :: back) (front ++ back)
  | replacement (front back : List α) (x y : α) : Edit (front ++ x :: back) (front ++ y :: back)

/-- So many edits, one after the other, turn the first list into the second. -/
inductive EditsIn : Nat → List α → List α → Prop where
  | done (a : List α) : EditsIn 0 a a
  | next {n : Nat} {a b c : List α} : Edit a b → EditsIn n b c → EditsIn (n + 1) a c

namespace Edit

variable {a b : List α}

theorem symm (edit : Edit a b) : Edit b a := by
  cases edit with
  | insertion front back x => exact .deletion front back x
  | deletion front back x => exact .insertion front back x
  | replacement front back x y => exact .replacement front back y x

theorem reverse (edit : Edit a b) : Edit a.reverse b.reverse := by
  cases edit with
  | insertion front back x =>
      simpa using insertion back.reverse front.reverse x
  | deletion front back x =>
      simpa using deletion back.reverse front.reverse x
  | replacement front back x y =>
      simpa using replacement back.reverse front.reverse x y

theorem behind (edit : Edit a b) (z : α) : Edit (z :: a) (z :: b) := by
  cases edit with
  | insertion front back x => exact insertion (z :: front) back x
  | deletion front back x => exact deletion (z :: front) back x
  | replacement front back x y => exact replacement (z :: front) back x y

theorem length_le (edit : Edit a b) : a.length ≤ b.length + 1 := by
  cases edit <;> simp only [List.length_append, List.length_cons] <;> omega

end Edit

namespace EditsIn

variable {a b c : List α} {m n : Nat}

theorem one (edit : Edit a b) : EditsIn 1 a b :=
  next edit (done b)

theorem trans (first : EditsIn m a b) (second : EditsIn n b c) : EditsIn (m + n) a c := by
  induction first with
  | done => rwa [Nat.zero_add]
  | next edit _ ih =>
      rw [Nat.add_right_comm]
      exact next edit (ih second)

theorem symm (edits : EditsIn n a b) : EditsIn n b a := by
  induction edits with
  | done a => exact done a
  | next edit _ ih => exact ih.trans (one edit.symm)

theorem reverse (edits : EditsIn n a b) : EditsIn n a.reverse b.reverse := by
  induction edits with
  | done a => exact done a.reverse
  | next edit _ ih => exact next edit.reverse ih

theorem behind (edits : EditsIn n a b) (z : α) : EditsIn n (z :: a) (z :: b) := by
  induction edits with
  | done a => exact done (z :: a)
  | next edit _ ih => exact next (edit.behind z) ih

theorem length_le (edits : EditsIn n a b) : a.length ≤ b.length + n := by
  induction edits with
  | done => exact Nat.le_refl _
  | next edit _ ih =>
      have := edit.length_le
      omega

theorem eq_of_zero (edits : EditsIn 0 a b) : a = b := by
  cases edits
  rfl

theorem of_nil (b : List α) : EditsIn b.length [] b := by
  induction b with
  | nil => exact done []
  | cons y b ih => exact next (.insertion [] [] y) (ih.behind y)

end EditsIn

variable [DecidableEq α]

/-! ## The recursion on the first elements -/

/-- The number of edits that a replacement costs. -/
def replacementCost (x y : α) : Nat :=
  if x = y then 0 else 1

/-- The least number of edits, by what becomes of the first elements. -/
def leastEdits : List α → List α → Nat
  | [], b => b.length
  | x :: a, [] => (x :: a).length
  | x :: a, y :: b =>
      min (min (leastEdits a (y :: b) + 1) (leastEdits (x :: a) b + 1))
        (leastEdits a b + replacementCost x y)
termination_by a b => a.length + b.length

section

variable (a b c : List α) (x y z : α)

theorem replacementCost_le : replacementCost x y ≤ 1 := by
  unfold replacementCost
  split <;> omega

@[simp] theorem replacementCost_self : replacementCost x x = 0 :=
  if_pos rfl

@[simp] theorem leastEdits_nil_left : leastEdits [] b = b.length := by
  rw [leastEdits]

@[simp] theorem leastEdits_nil_right : leastEdits a [] = a.length := by
  cases a <;> rw [leastEdits, List.length]

theorem leastEdits_cons : leastEdits (x :: a) (y :: b) =
    min (min (leastEdits a (y :: b) + 1) (leastEdits (x :: a) b + 1))
      (leastEdits a b + replacementCost x y) := by
  rw [leastEdits]

/-- One of the three ways to treat the first elements is the best. -/
theorem leastEdits_cases : leastEdits (x :: a) (y :: b) = leastEdits a (y :: b) + 1 ∨
    leastEdits (x :: a) (y :: b) = leastEdits (x :: a) b + 1 ∨
    leastEdits (x :: a) (y :: b) = leastEdits a b + replacementCost x y := by
  rw [leastEdits_cons]
  omega

theorem leastEdits_delete_le : leastEdits (x :: a) b ≤ leastEdits a b + 1 := by
  cases b with
  | nil => simp
  | cons y b =>
      rw [leastEdits_cons]
      omega

theorem leastEdits_insert_le : leastEdits a (y :: b) ≤ leastEdits a b + 1 := by
  cases a with
  | nil => simp
  | cons x a =>
      rw [leastEdits_cons]
      omega

theorem leastEdits_replace_le :
    leastEdits (x :: a) (y :: b) ≤ leastEdits a b + replacementCost x y := by
  rw [leastEdits_cons]
  omega

/-! ## One edit changes the distance by at most one -/

theorem leastEdits_le_of_inserted : leastEdits a c ≤ leastEdits (x :: a) c + 1 := by
  induction c with
  | nil => simp; omega
  | cons z c ih =>
      have shorter := leastEdits_insert_le a c z
      rcases leastEdits_cases a c x z with deleted | inserted | replaced
      · omega
      · omega
      · omega

theorem leastEdits_le_of_replaced : leastEdits (x :: a) c ≤ leastEdits (y :: a) c + 1 := by
  induction c with
  | nil => simp
  | cons z c ih =>
      have deleting := leastEdits_delete_le a (z :: c) x
      have inserting := leastEdits_insert_le (x :: a) c z
      have replacing := leastEdits_replace_le a c x z
      have cost := replacementCost_le x z
      rcases leastEdits_cases a c y z with deleted | inserted | replaced
      · omega
      · omega
      · omega

variable {a b}

/-- What one edit changes at most stays so behind a common first element. -/
theorem leastEdits_le_behind (near : ∀ c, leastEdits a c ≤ leastEdits b c + 1) :
    leastEdits (z :: a) c ≤ leastEdits (z :: b) c + 1 := by
  induction c with
  | nil =>
      have shorter := near []
      rw [leastEdits_nil_right, leastEdits_nil_right] at shorter ⊢
      exact Nat.add_le_add_right shorter 1
  | cons w c ih =>
      have deleting := leastEdits_delete_le a (w :: c) z
      have inserting := leastEdits_insert_le (z :: a) c w
      have replacing := leastEdits_replace_le a c z w
      rcases leastEdits_cases b c z w with deleted | inserted | replaced
      · have := near (w :: c)
        omega
      · omega
      · have := near c
        omega

theorem leastEdits_le_append (near : ∀ c, leastEdits a c ≤ leastEdits b c + 1) (front : List α) :
    leastEdits (front ++ a) c ≤ leastEdits (front ++ b) c + 1 := by
  induction front generalizing c with
  | nil => exact near c
  | cons z front ih => exact leastEdits_le_behind c z fun c => ih c

theorem leastEdits_le_of_edit (edit : Edit a b) : leastEdits a c ≤ leastEdits b c + 1 := by
  cases edit with
  | insertion front back x =>
      exact leastEdits_le_append c (fun c => leastEdits_le_of_inserted back c x) front
  | deletion front back x =>
      exact leastEdits_le_append c (fun c => leastEdits_delete_le back c x) front
  | replacement front back x y =>
      exact leastEdits_le_append c (fun c => leastEdits_le_of_replaced back c x y) front

theorem leastEdits_self : leastEdits a a = 0 := by
  induction a with
  | nil => simp
  | cons x a ih =>
      have := leastEdits_replace_le a a x x
      rw [ih, replacementCost_self] at this
      omega

theorem leastEdits_le {n : Nat} (edits : EditsIn n a b) : leastEdits a b ≤ n := by
  induction edits with
  | done => exact leastEdits_self.le
  | next edit _ ih => exact (leastEdits_le_of_edit _ edit).trans (Nat.add_le_add_right ih 1)

/-! ## The distance is reached -/

variable (a b)

/-- So many edits do turn one list into the other. -/
theorem editsIn_leastEdits : EditsIn (leastEdits a b) a b := by
  fun_induction leastEdits a b with
  | case1 b => exact .of_nil b
  | case2 x a => exact (EditsIn.of_nil (x :: a)).symm
  | case3 x a y b deleted inserted replaced =>
      rw [← leastEdits_cons]
      rcases leastEdits_cases a b x y with least | least | least
      · rw [least]
        exact .next (.deletion [] a x) deleted
      · rw [least]
        exact inserted.trans (.one (.insertion [] b y))
      · rw [least]
        by_cases same : x = y
        · rw [same, replacementCost_self]
          exact replaced.behind y
        · rw [replacementCost, if_neg same]
          exact (replaced.behind x).trans (.one (.replacement [] b x y))

theorem leastEdits_le_max : leastEdits a b ≤ max a.length b.length := by
  induction a generalizing b with
  | nil => simp
  | cons x a ih =>
      cases b with
      | nil => simp
      | cons y b =>
          have := leastEdits_replace_le a b x y
          have := replacementCost_le x y
          have := ih b
          simp only [List.length_cons]
          omega

end

/-! ## The table -/

namespace EditDistance

/-- The row of a reversed beginning, from the column of a reversed beginning on. -/
def distances (a front : List α) : List α → List Nat
  | [] => [leastEdits a front]
  | y :: rest => leastEdits a front :: distances a (y :: front) rest

section

variable (a front rest : List α) (x : α)

theorem distances_head : ∃ others, distances a front rest = leastEdits a front :: others := by
  cases rest with
  | nil => exact ⟨[], rfl⟩
  | cons y rest => exact ⟨distances a (y :: front) rest, rfl⟩

theorem distances_last :
    (distances a front rest).getLastD 0 = leastEdits a (rest.reverse ++ front) := by
  induction rest generalizing front with
  | nil => rfl
  | cons y rest ih =>
      obtain ⟨others, head⟩ := distances_head a (y :: front) rest
      calc (distances a front (y :: rest)).getLastD 0
        _ = (distances a (y :: front) rest).getLastD 0 := by rw [distances, head]; rfl
        _ = leastEdits a (rest.reverse ++ y :: front) := ih (y :: front)
        _ = leastEdits a ((y :: rest).reverse ++ front) := by simp

theorem rowFrom_distances : rowFrom x rest (distances a front rest) (leastEdits (x :: a) front) =
    (distances (x :: a) front rest).tail := by
  induction rest generalizing front with
  | nil => rfl
  | cons y rest ih =>
      obtain ⟨others, head⟩ := distances_head a (y :: front) rest
      obtain ⟨computed, head'⟩ := distances_head (x :: a) (y :: front) rest
      have entry := leastEdits_cons a front x y
      have step := ih (y :: front)
      rw [head, head'] at step
      simp only [distances, head, head', rowFrom, List.tail_cons]
      rw [← replacementCost, ← entry, step]
      rfl

theorem nextRow_distances : nextRow rest (distances a [] rest) x = distances (x :: a) [] rest := by
  obtain ⟨others, head⟩ := distances_head a [] rest
  obtain ⟨computed, head'⟩ := distances_head (x :: a) [] rest
  have first : (distances a [] rest).headD 0 + 1 = leastEdits (x :: a) [] := by
    rw [head]
    simp
  rw [nextRow, first, rowFrom_distances, head']
  rfl

theorem distances_nil : distances [] front rest = List.range' front.length (rest.length + 1) := by
  induction rest generalizing front with
  | nil => simp [distances]
  | cons y rest ih =>
      rw [distances, List.length_cons, List.range'_succ, leastEdits_nil_left, ih (y :: front)]
      rfl

theorem firstRow_distances : firstRow rest = distances [] [] rest := by
  rw [firstRow, List.range_eq_range', distances_nil]
  rfl

/-- Each element of the one list leads from the row of what comes before it to its own row. -/
theorem foldl_distances (more : List α) : more.foldl (nextRow rest) (distances a [] rest) =
    distances (more.reverse ++ a) [] rest := by
  induction more generalizing a with
  | nil => rfl
  | cons x more ih =>
      rw [List.foldl_cons, nextRow_distances, ih (x :: a)]
      simp

end

end EditDistance

/-! ## The distance -/

section

variable (a b c : List α)

theorem editDistance_eq : editDistance a b = leastEdits a.reverse b.reverse := by
  rw [editDistance, EditDistance.firstRow_distances, EditDistance.foldl_distances,
    EditDistance.distances_last, List.append_nil, List.append_nil]

theorem editDistance_least : IsLeast {n | EditsIn n a b} (editDistance a b) := by
  rw [editDistance_eq]
  constructor
  · simpa using (editsIn_leastEdits a.reverse b.reverse).reverse
  · exact fun n edits => leastEdits_le edits.reverse

theorem editDistance_eq_zero : editDistance a b = 0 ↔ a = b := by
  constructor
  · intro none
    have edits := (editDistance_least a b).1
    rw [none] at edits
    exact edits.eq_of_zero
  · intro same
    exact Nat.le_zero.mp ((editDistance_least a b).2 (same ▸ .done a))

theorem editDistance_comm : editDistance a b = editDistance b a := by
  have le (a b : List α) : editDistance a b ≤ editDistance b a :=
    (editDistance_least a b).2 (editDistance_least b a).1.symm
  exact Nat.le_antisymm (le a b) (le b a)

theorem editDistance_triangle : editDistance a c ≤ editDistance a b + editDistance b c :=
  (editDistance_least a c).2 ((editDistance_least a b).1.trans (editDistance_least b c).1)

/-- Edits change the length one by one. -/
theorem le_editDistance :
    max a.length b.length - min a.length b.length ≤ editDistance a b := by
  have edits := (editDistance_least a b).1
  have shrinking := edits.length_le
  have growing := edits.symm.length_le
  omega

theorem editDistance_le : editDistance a b ≤ max a.length b.length := by
  rw [editDistance_eq, ← a.length_reverse, ← b.length_reverse]
  exact leastEdits_le_max a.reverse b.reverse

end

/-- The table ends in the least number of edits, which is a metric within the bounds of the
    lengths. -/
theorem editDistance_metric (a b : List α) :
    IsLeast {n | EditsIn n a b} (editDistance a b) ∧
    (editDistance a b = 0 ↔ a = b) ∧
    editDistance a b = editDistance b a ∧
    (∀ c, editDistance a c ≤ editDistance a b + editDistance b c) ∧
    max a.length b.length - min a.length b.length ≤ editDistance a b ∧
    editDistance a b ≤ max a.length b.length :=
  ⟨editDistance_least a b, editDistance_eq_zero a b, editDistance_comm a b,
    fun c => editDistance_triangle a b c, le_editDistance a b, editDistance_le a b⟩

end CodeSearch
