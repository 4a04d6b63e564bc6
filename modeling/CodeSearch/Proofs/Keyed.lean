import CodeSearch.Keyed
import Mathlib.Data.List.Nodup
import Mathlib.Tactic.Common

/-! # Laws of keyed entries

Entries are read through `get?`: each operation is one equation on it. With distinct keys, what
is read under a key is what is listed, and the operations keep the keys distinct.
-/

namespace CodeSearch.Keyed

variable {κ α : Type} [DecidableEq κ]

theorem get?_put (entries : Keyed κ α) (key other : κ) (a : α) :
    get? (put entries key a) other = if other = key then some a else get? entries other := by
  split
  · rename_i same
    rw [same, get?_put_self]
  · rename_i different
    exact get?_put_of_ne entries a different

theorem get?_erase (entries : Keyed κ α) (key other : κ) :
    get? (erase entries key) other = if other = key then none else get? entries other := by
  split
  · rename_i same
    rw [same, get?_erase_self]
  · rename_i different
    exact get?_erase_of_ne entries different

theorem mem_of_get? {entries : Keyed κ α} {key : κ} {a : α} (h : get? entries key = some a) :
    (key, a) ∈ entries := by
  induction entries with
  | nil => simp [get?] at h
  | cons e rest ih =>
      obtain ⟨k, b⟩ := e
      rw [get?] at h
      split at h
      · rename_i same
        cases h
        exact same ▸ List.mem_cons_self
      · exact List.mem_cons_of_mem _ (ih h)

theorem get?_eq_none {entries : Keyed κ α} {key : κ} :
    get? entries key = none ↔ key ∉ keys entries := by
  induction entries with
  | nil => simp [get?, keys]
  | cons e rest ih =>
      obtain ⟨k, b⟩ := e
      by_cases same : k = key
      · simp [get?, keys, same]
      · simpa [get?, keys, same, Ne.symm same] using ih

theorem get?_of_mem {entries : Keyed κ α} (distinct : (keys entries).Nodup) {key : κ} {a : α}
    (h : (key, a) ∈ entries) : get? entries key = some a := by
  induction entries with
  | nil => cases h
  | cons e rest ih =>
      obtain ⟨k, b⟩ := e
      obtain ⟨absent, distinctRest⟩ := List.nodup_cons.mp distinct
      rcases List.mem_cons.mp h with same | inRest
      · cases same
        simp [get?]
      · have different : k ≠ key := by
          intro same
          exact absent (same ▸ List.mem_map.mpr ⟨(key, a), inRest, rfl⟩)
        simpa [get?, different] using ih distinctRest inRest

theorem get?_iff_mem {entries : Keyed κ α} (distinct : (keys entries).Nodup) {key : κ} {a : α} :
    get? entries key = some a ↔ (key, a) ∈ entries :=
  ⟨mem_of_get?, get?_of_mem distinct⟩

theorem mem_values {entries : Keyed κ α} (distinct : (keys entries).Nodup) {a : α} :
    a ∈ values entries ↔ ∃ key, get? entries key = some a := by
  simp only [values, List.mem_map, Prod.exists, exists_eq_right, get?_iff_mem distinct]

theorem has_iff {entries : Keyed κ α} {key : κ} :
    has entries key = true ↔ ∃ a, get? entries key = some a := by
  rw [has, Option.isSome_iff_exists]

theorem mem_put {entries : Keyed κ α} {key : κ} {a : α} {e : κ × α}
    (h : e ∈ put entries key a) : e ∈ entries ∨ e = (key, a) := by
  induction entries with
  | nil => exact .inr (List.mem_singleton.mp h)
  | cons first rest ih =>
      obtain ⟨k, b⟩ := first
      rw [put] at h
      split at h
      · rcases List.mem_cons.mp h with same | inRest
        · exact .inr same
        · exact .inl (List.mem_cons_of_mem _ inRest)
      · rcases List.mem_cons.mp h with same | inRest
        · exact .inl (same ▸ List.mem_cons_self)
        · exact (ih inRest).imp_left (List.mem_cons_of_mem _)

theorem keys_put (entries : Keyed κ α) (key : κ) (a : α) :
    keys (put entries key a) = if key ∈ keys entries then keys entries else keys entries ++ [key] := by
  induction entries with
  | nil => simp [put, keys]
  | cons e rest ih =>
      obtain ⟨k, b⟩ := e
      by_cases same : k = key
      · simp [put, keys, same]
      · have tail : keys (put ((k, b) :: rest) key a) = k :: keys (put rest key a) := by
          simp [put, keys, same]
        have held : key ∈ keys ((k, b) :: rest) ↔ key ∈ keys rest := by
          simp [keys, Ne.symm same]
        rw [tail, ih]
        simp only [held]
        split
        · rfl
        · rfl

theorem length_put_le (entries : Keyed κ α) (key : κ) (a : α) :
    (put entries key a).length ≤ entries.length + 1 := by
  have keys := congrArg List.length (keys_put entries key a)
  split at keys
  · simp only [Keyed.keys, List.length_map] at keys
    exact keys ▸ Nat.le_succ _
  · simp only [Keyed.keys, List.length_append, List.length_map, List.length_singleton] at keys
    exact Nat.le_of_eq keys

theorem nodup_put {entries : Keyed κ α} (distinct : (keys entries).Nodup) (key : κ) (a : α) :
    (keys (put entries key a)).Nodup := by
  rw [keys_put]
  split
  · exact distinct
  · rename_i absent
    exact List.nodup_append.mpr ⟨distinct, List.nodup_singleton key, fun k hk other hOther same =>
      absent (List.mem_singleton.mp hOther ▸ same ▸ hk)⟩

omit [DecidableEq κ] in
theorem nodup_filter {entries : Keyed κ α} (distinct : (keys entries).Nodup) (p : κ × α → Bool) :
    (keys (entries.filter p)).Nodup :=
  distinct.sublist (List.filter_sublist.map Prod.fst)

theorem nodup_erase {entries : Keyed κ α} (distinct : (keys entries).Nodup) (key : κ) :
    (keys (erase entries key)).Nodup :=
  nodup_filter distinct _

theorem erase_of_absent {entries : Keyed κ α} {key : κ} (absent : get? entries key = none) :
    erase entries key = entries := by
  refine List.filter_eq_self.mpr fun e inside => decide_eq_true ?_
  rintro rfl
  exact get?_eq_none.mp absent (List.mem_map_of_mem inside)

/-- Under a key whose entry is kept, a filter changes nothing. -/
theorem get?_filter (entries : Keyed κ α) {p : κ × α → Bool} {key : κ}
    (kept : ∀ a, get? entries key = some a → p (key, a) = true) :
    get? (entries.filter p) key = get? entries key := by
  induction entries with
  | nil => rfl
  | cons e rest ih =>
      obtain ⟨k, b⟩ := e
      by_cases same : k = key
      · subst same
        have stays : p (k, b) = true := kept b (by simp [get?])
        simp [get?, stays]
      · have tail := ih fun a held => kept a (by simpa [get?, same] using held)
        by_cases stays : p (k, b) = true
        · simpa [get?, stays, same] using tail
        · simpa [get?, stays, same] using tail

/-- A filter by keys leaves what is under a key as it was, or drops it. -/
theorem get?_filter_keys (entries : Keyed κ α) (p : κ → Bool) (key : κ) :
    get? (entries.filter fun e => p e.1) key = if p key then get? entries key else none := by
  split
  · rename_i kept
    exact get?_filter entries fun _ _ => kept
  · rename_i dropped
    refine get?_eq_none.mpr fun inside => dropped ?_
    obtain ⟨e, insideToo, rfl⟩ := List.mem_map.mp inside
    exact (List.mem_filter.mp insideToo).2

/-- An entry is there after filtering when it was there before and is kept. -/
theorem get?_filter_iff {entries : Keyed κ α} (distinct : (keys entries).Nodup)
    (p : κ × α → Bool) {key : κ} {a : α} :
    get? (entries.filter p) key = some a ↔ get? entries key = some a ∧ p (key, a) = true := by
  rw [get?_iff_mem (nodup_filter distinct p), List.mem_filter, get?_iff_mem distinct]

theorem get?_map {β : Type} (entries : Keyed κ α) (f : α → β) (key : κ) :
    get? (entries.map fun e => (e.1, f e.2)) key = (get? entries key).map f := by
  induction entries with
  | nil => rfl
  | cons e rest ih =>
      obtain ⟨k, a⟩ := e
      simp only [List.map_cons, get?]
      split
      · rfl
      · exact ih

end CodeSearch.Keyed
