import Mathlib.Data.List.Basic

/-! # Sorted lists and lists without repetitions

A list is sorted by a total order that need not tell all its elements apart. What is dropped from it
may be dropped before or after. Where the order tells all elements apart, the sorted list does not
depend on the order in which they come. A list whose repetitions are dropped has none.
-/

namespace CodeSearch

theorem nodup_eraseDups {α : Type} [BEq α] [LawfulBEq α] (l : List α) : l.eraseDups.Nodup := by
  cases l with
  | nil => exact List.nodup_nil
  | cons a rest =>
      rw [List.eraseDups_cons, List.nodup_cons]
      refine ⟨fun inside => ?_, nodup_eraseDups _⟩
      have different := List.of_mem_filter (List.mem_eraseDups.mp inside)
      simp at different
termination_by l.length
decreasing_by exact Nat.lt_succ_of_le (List.length_filter_le ..)

section

variable {α : Type} {le : α → α → Bool}

/-- Only what is in a list decides of its sorted form, when the order tells all of it apart. -/
theorem mergeSort_eq_of_perm (trans : ∀ a b c, le a b = true → le b c = true → le a c = true)
    (total : ∀ a b, (le a b || le b a) = true) {l others : List α} (perm : l.Perm others)
    (antisymm : ∀ a ∈ l, ∀ b ∈ l, le a b = true → le b a = true → a = b) :
    l.mergeSort le = others.mergeSort le := by
  have lists := ((List.mergeSort_perm l le).trans perm).trans (List.mergeSort_perm others le).symm
  refine lists.eq_of_pairwise (fun a b ha hb => ?_) (List.pairwise_mergeSort trans total l)
    (List.pairwise_mergeSort trans total others)
  exact antisymm a (List.mem_mergeSort.mp ha) b (perm.mem_iff.mpr (List.mem_mergeSort.mp hb))

/-- An element is put between what it strictly follows and the rest. -/
theorem mergeSort_cons_halves (trans : ∀ a b c, le a b = true → le b c = true → le a c = true)
    (total : ∀ a b, (le a b || le b a) = true) (a : α) (l : List α) :
    ∃ front back, (a :: l).mergeSort le = front ++ a :: back ∧ l.mergeSort le = front ++ back ∧
      (∀ b ∈ front, le a b = false) ∧ ∀ b ∈ back, le a b = true := by
  obtain ⟨front, back, sorted, others, before⟩ := List.mergeSort_cons trans total a l
  have ordered := List.pairwise_mergeSort trans total (a :: l)
  rw [sorted] at ordered
  exact ⟨front, back, sorted, others, fun b hb => by simpa using before b hb,
    (List.pairwise_cons.mp (List.pairwise_append.mp ordered).2.1).1⟩

theorem halves_eq {a : α} {front back front' back' : List α}
    (same : front ++ back = front' ++ back') (before : ∀ b ∈ front, le a b = false)
    (after : ∀ b ∈ back, le a b = true) (before' : ∀ b ∈ front', le a b = false)
    (after' : ∀ b ∈ back', le a b = true) :
    front = front' ∧ back = back' := by
  have fronts := congrArg (List.filter fun b => !le a b) same
  simp only [List.filter_append] at fronts
  rw [List.filter_eq_self.mpr fun b hb => by rw [before b hb]; rfl,
    List.filter_eq_nil_iff.mpr fun b hb => by simp [after b hb],
    List.filter_eq_self.mpr fun b hb => by rw [before' b hb]; rfl,
    List.filter_eq_nil_iff.mpr fun b hb => by simp [after' b hb], List.append_nil,
    List.append_nil] at fronts
  exact List.append_inj same (congrArg List.length fronts)

/-- Sorting keeps equal elements in their order, so it may as well come before some are dropped. -/
theorem filter_mergeSort (trans : ∀ a b c, le a b = true → le b c = true → le a c = true)
    (total : ∀ a b, (le a b || le b a) = true) (q : α → Bool) (l : List α) :
    (l.mergeSort le).filter q = (l.filter q).mergeSort le := by
  induction l with
  | nil => simp
  | cons a rest ih =>
      obtain ⟨front, back, sorted, others, before, after⟩ :=
        mergeSort_cons_halves trans total a rest
      rw [others, List.filter_append] at ih
      rw [sorted, List.filter_append]
      by_cases kept : q a = true
      · obtain ⟨front', back', sorted', others', before', after'⟩ :=
          mergeSort_cons_halves trans total a (rest.filter q)
        obtain ⟨rfl, rfl⟩ := halves_eq (ih.trans others')
          (fun b hb => before b (List.mem_of_mem_filter hb))
          (fun b hb => after b (List.mem_of_mem_filter hb)) before' after'
        rw [List.filter_cons_of_pos kept, List.filter_cons_of_pos kept, sorted']
      · rw [List.filter_cons_of_neg kept, List.filter_cons_of_neg kept, ih]

/-- What is kept of the first `k` elements comes first among all that is kept. -/
theorem filter_take_prefix (q : α → Bool) (l : List α) (k : Nat) :
    (l.take k).filter q <+: (l.filter q).take k := by
  refine List.prefix_take_iff.mpr ⟨(List.take_prefix k l).filter q, ?_⟩
  exact Nat.le_trans (List.length_filter_le ..) (List.length_take_le ..)

/-- In a sorted list the first `k` elements do not come after any of the rest. -/
theorem le_of_take_of_drop {l : List α} (sorted : l.Pairwise fun a b => le a b = true) {k : Nat}
    {a b : α} (first : a ∈ l.take k) (rest : b ∈ l.drop k) : le a b = true := by
  rw [← List.take_append_drop k l] at sorted
  exact (List.pairwise_append.mp sorted).2.2 a first b rest

end

end CodeSearch
