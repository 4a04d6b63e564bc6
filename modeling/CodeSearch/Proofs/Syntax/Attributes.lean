import CodeSearch.Proofs.Keyed
import CodeSearch.Proofs.Text
import CodeSearch.Syntax.Attributes

/-! # Values of several parts

A value of several parts is one text with commas between the parts, and is read by cutting it at its
commas. So a part that is added is read back as it is only when there is no comma in it; else it is
read as the pieces between its commas.
-/

namespace CodeSearch.Syntax.Attributes

/-- The pieces between the commas of a text that are not empty. -/
def pieces (value : String) : List String :=
  (Text.split value ',').filter (!·.isEmpty)

/-- What is kept of parts that are added: they are trimmed, and blank ones are left out. -/
def kept (parts : List String) : List String :=
  (parts.map Text.trim).filter (!·.isEmpty)

/-! ## Pieces -/

theorem pieces_empty : pieces "" = [] :=
  rfl

theorem pieces_append (a b : String) : pieces (a ++ "," ++ b) = pieces a ++ pieces b := by
  rw [pieces, Text.split_append rfl, List.filter_append]
  rfl

theorem pieces_of_isEmpty {value : String} (empty : value.isEmpty = true) : pieces value = [] := by
  rw [String.isEmpty_iff.mp empty, pieces_empty]

theorem comma_not_mem {value piece : String} (inside : piece ∈ pieces value) :
    ',' ∉ piece.toList :=
  Text.not_mem_of_mem_split (List.mem_filter.mp inside).1

theorem pieces_of_not_mem {value : String} (some : value.isEmpty = false)
    (unmarked : ',' ∉ value.toList) : pieces value = [value] := by
  rw [pieces, Text.split_of_not_mem unmarked, List.filter_singleton, some]
  rfl

/-- Blank parts have no pieces. -/
theorem flatMap_pieces_kept (parts : List String) :
    (kept parts).flatMap pieces = parts.flatMap fun part => pieces (Text.trim part) := by
  induction parts with
  | nil => rw [kept, List.map_nil, List.filter_nil, List.flatMap_nil, List.flatMap_nil]
  | cons part parts ih =>
      rw [kept, List.map_cons, List.flatMap_cons, ← ih]
      cases empty : (Text.trim part).isEmpty with
      | true =>
          rw [List.filter_cons_of_neg (by simp [empty]), pieces_of_isEmpty empty]
          rfl
      | false =>
          rw [List.filter_cons_of_pos (by simp [empty])]
          rfl

/-- Kept parts are their own pieces where no comma is in them. -/
theorem flatMap_pieces_eq_self_iff (parts : List String) :
    (kept parts).flatMap pieces = kept parts ↔ ∀ part ∈ kept parts, ',' ∉ part.toList := by
  constructor
  · intro same part inside
    rw [← same] at inside
    obtain ⟨whole, -, inside⟩ := List.mem_flatMap.mp inside
    exact comma_not_mem inside
  · intro unmarked
    have single : ∀ part ∈ kept parts, pieces part = [part] := fun part inside =>
      pieces_of_not_mem (by simpa using (List.mem_filter.mp inside).2) (unmarked part inside)
    rw [List.flatMap_congr single, List.flatMap_singleton']

/-! ## Reading under a key -/

/-- A text, unless it is empty. -/
def filled? (value : String) : Option String :=
  if value.isEmpty then none else some value

section

variable (a : Attributes) {key other : Attribute}

@[grind =]
theorem get?_empty (key : Attribute) : empty.get? key = none :=
  rfl

@[grind =]
theorem get?_set (value : String) : (a.set key value).get? other =
    if other = key then (filled? value).or (a.get? key) else a.get? other := by
  unfold set filled?
  split
  · split
    · rename_i same
      rw [same, Option.none_or]
    · rfl
  · rw [get?, Keyed.get?_put]
    rfl

@[grind =]
theorem get?_setSome (value : Option String) : (a.setSome key value).get? other =
    if other = key then (filled? (value.getD "")).or (a.get? key) else a.get? other :=
  get?_set a (value.getD "")

@[grind =]
theorem get?_push_of_ne (different : other ≠ key) (part : String) :
    (a.push key part).get? other = a.get? other := by
  simp only [push]
  split
  · rfl
  · exact Keyed.get?_put_of_ne a.entries _ different

@[grind =]
theorem get?_pushAll_of_ne (different : other ≠ key) (parts : List String) :
    (a.pushAll key parts).get? other = a.get? other :=
  List.foldlRecOn (motive := fun b : Attributes => b.get? other = a.get? other) parts _ rfl
    fun b same part _ => (get?_push_of_ne b different part).trans same

@[grind =]
theorem get?_flagIf_of_ne (different : other ≠ key) (condition : Bool) :
    (a.flagIf condition key).get? other = a.get? other := by
  cases condition with
  | false => rfl
  | true => exact Keyed.get?_put_of_ne a.entries _ different

end

/-! ## Reading what was added -/

variable {a : Attributes} {key : Attribute}

theorem list_of_get? {value : String} (held : (a.get? key).getD "" = value) :
    a.list key = pieces value := by
  rw [list]
  cases there : a.get? key with
  | none =>
      rw [there] at held
      exact held ▸ pieces_empty.symm
  | some text =>
      rw [there] at held
      exact held ▸ rfl

/-- Adding a part adds its pieces behind those that are there. -/
theorem list_push (a : Attributes) (key : Attribute) (part : String) :
    (a.push key part).list key = a.list key ++ pieces (Text.trim part) := by
  have before : a.list key = pieces ((a.get? key).getD "") := list_of_get? rfl
  simp only [push]
  split
  · rename_i blank
    rw [pieces_of_isEmpty blank, List.append_nil]
  · have after : ∀ value, list ⟨Keyed.put a.entries key value⟩ key = pieces value := fun value =>
      list_of_get? (by rw [get?, Keyed.get?_put_self, Option.getD_some])
    rw [after, before]
    split
    · rename_i first
      rw [pieces_of_isEmpty first, List.nil_append]
    · exact pieces_append _ _

theorem list_pushAll (a : Attributes) (key : Attribute) (parts : List String) :
    (a.pushAll key parts).list key =
      a.list key ++ parts.flatMap fun part => pieces (Text.trim part) := by
  induction parts generalizing a with
  | nil => exact (List.append_nil _).symm
  | cons part parts ih =>
      rw [pushAll, List.foldl_cons, ← pushAll, ih, list_push, List.flatMap_cons, List.append_assoc]

/-- Parts that are added where there were none are read back by their pieces. -/
theorem list_pushAll_of_absent (absent : a.get? key = none) (parts : List String) :
    (a.pushAll key parts).list key = (kept parts).flatMap pieces := by
  have none : a.list key = pieces "" := list_of_get? (by rw [absent, Option.getD_none])
  rw [list_pushAll, none, pieces_empty, List.nil_append, flatMap_pieces_kept]

/-- What is read of parts that are added where there were none: their pieces, which are the parts
    themselves where no comma is in any of them, and only there. -/
theorem list_of_added (absent : a.get? key = none) (parts : List String) :
    (a.pushAll key parts).list key = (kept parts).flatMap pieces ∧
      ((a.pushAll key parts).list key = kept parts ↔ ∀ part ∈ kept parts, ',' ∉ part.toList) := by
  have added := list_pushAll_of_absent absent parts
  exact ⟨added, added ▸ flatMap_pieces_eq_self_iff parts⟩

/-- Each part is read back, trimmed, if it is not blank and has no comma, and only then. -/
theorem flatMap_pieces_eq_trim_iff (parts : List String) :
    (kept parts).flatMap pieces = parts.map Text.trim ↔
      ∀ part ∈ parts, (Text.trim part).isEmpty = false ∧ ',' ∉ (Text.trim part).toList := by
  constructor
  · intro same part inside
    have piece : Text.trim part ∈ (kept parts).flatMap pieces := same ▸ List.mem_map_of_mem inside
    obtain ⟨whole, -, piece⟩ := List.mem_flatMap.mp piece
    exact ⟨by simpa using (List.mem_filter.mp piece).2, comma_not_mem piece⟩
  · intro plain
    have all : kept parts = parts.map Text.trim := by
      refine List.filter_eq_self.mpr fun trimmed inside => ?_
      obtain ⟨part, held, rfl⟩ := List.mem_map.mp inside
      rw [(plain part held).1]
      rfl
    rw [(flatMap_pieces_eq_self_iff parts).mpr, all]
    intro trimmed inside
    rw [all] at inside
    obtain ⟨part, held, rfl⟩ := List.mem_map.mp inside
    exact (plain part held).2

/-- Two modules with a blank in between, beside a name. -/
theorem modules_of_added :
    (Attributes.empty.set .name "x").get? .imports = none ∧
      ((Attributes.empty.set .name "x").pushAll .imports [" ./a", " ", "./b c"]).list .imports =
        ["./a", "./b c"] := by
  have absent : (Attributes.empty.set .name "x").get? .imports = none := rfl
  exact ⟨absent, (list_of_added absent [" ./a", " ", "./b c"]).2.mpr (by decide)⟩

/-- One module whose path has a comma in it is read as two. -/
theorem comma_divides :
    Attributes.empty.get? .imports = none ∧ kept ["./a,b"] = ["./a,b"] ∧
      (Attributes.empty.pushAll .imports ["./a,b"]).list .imports = ["./a", "b"] :=
  ⟨rfl, rfl, rfl⟩

end CodeSearch.Syntax.Attributes
