import CodeSearch.Symbol.Basic

/-! # Sets of ids

A set of symbol ids is the ascending list of its elements, so that equal sets are equal lists.
-/

namespace CodeSearch

/-- An ascending list of ids without repetition. -/
abbrev IdSet := List SymbolId

namespace IdSet

/-- Put an id in its place. -/
def insert (id : SymbolId) : IdSet → IdSet
  | [] => [id]
  | first :: rest =>
    if id < first then id :: first :: rest
    else if id = first then first :: rest
    else first :: insert id rest

def erase (ids : IdSet) (id : SymbolId) : IdSet :=
  ids.filter (· ≠ id)

/-- All elements of both. -/
def union (ids : IdSet) (more : List SymbolId) : IdSet :=
  more.foldl (fun ids id => insert id ids) ids

theorem mem_insert (id other : SymbolId) (ids : IdSet) :
    other ∈ insert id ids ↔ other = id ∨ other ∈ ids := by
  induction ids with
  | nil => simp [insert]
  | cons first rest ih =>
    unfold insert
    split
    · simp
    · split
      · rename_i h
        subst h
        simp
      · simp only [List.mem_cons, ih]
        exact or_left_comm

theorem mem_erase (id other : SymbolId) (ids : IdSet) :
    other ∈ erase ids id ↔ other ≠ id ∧ other ∈ ids := by
  simp [erase, and_comm]

end IdSet

end CodeSearch
