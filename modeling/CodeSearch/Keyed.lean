/-! # Keyed entries

Entries under pairwise distinct keys, in the order in which the keys first came.
-/

namespace CodeSearch

/-- Entries under keys. -/
abbrev Keyed (κ α : Type) := List (κ × α)

namespace Keyed

variable {κ α : Type} [DecidableEq κ]

/-- The entry under a key. -/
def get? : Keyed κ α → κ → Option α
  | [], _ => none
  | (k, a) :: rest, key => if k = key then some a else get? rest key

def has (entries : Keyed κ α) (key : κ) : Bool :=
  (get? entries key).isSome

/-- Put an entry under a key, in place of the one that is there. -/
def put : Keyed κ α → κ → α → Keyed κ α
  | [], key, a => [(key, a)]
  | (k, b) :: rest, key, a => if k = key then (key, a) :: rest else (k, b) :: put rest key a

/-- Drop the entry under a key. -/
def erase (entries : Keyed κ α) (key : κ) : Keyed κ α :=
  entries.filter fun (k, _) => k ≠ key

def keys (entries : Keyed κ α) : List κ :=
  entries.map (·.1)

def values (entries : Keyed κ α) : List α :=
  entries.map (·.2)

theorem get?_put_self (entries : Keyed κ α) (key : κ) (a : α) :
    get? (put entries key a) key = some a := by
  induction entries with
  | nil => simp [put, get?]
  | cons e rest ih =>
    obtain ⟨k, b⟩ := e
    by_cases h : k = key <;> simp [put, get?, h, ih]

theorem get?_put_of_ne (entries : Keyed κ α) {key other : κ} (a : α) (h : other ≠ key) :
    get? (put entries key a) other = get? entries other := by
  induction entries with
  | nil => simp [put, get?, h.symm]
  | cons e rest ih =>
    obtain ⟨k, b⟩ := e
    by_cases hk : k = key
    · subst hk
      simp [put, get?, h.symm]
    · by_cases ho : k = other
      · subst ho
        simp [put, get?, hk]
      · simp [put, get?, hk, ho, ih]

theorem get?_erase_self (entries : Keyed κ α) (key : κ) : get? (erase entries key) key = none := by
  induction entries with
  | nil => rfl
  | cons e rest ih =>
    obtain ⟨k, b⟩ := e
    by_cases h : k = key
    · simpa [erase, h] using ih
    · simpa [erase, get?, h] using ih

theorem get?_erase_of_ne (entries : Keyed κ α) {key other : κ} (h : other ≠ key) :
    get? (erase entries key) other = get? entries other := by
  induction entries with
  | nil => rfl
  | cons e rest ih =>
    obtain ⟨k, b⟩ := e
    by_cases hk : k = key
    · subst hk
      simpa [erase, get?, h.symm] using ih
    · by_cases ho : k = other
      · subst ho
        simp [erase, get?, hk]
      · simpa [erase, get?, hk, ho] using ih

end Keyed

end CodeSearch
