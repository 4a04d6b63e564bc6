import CodeSearch.Proofs.Argument.Items

/-! # Normal form of list arguments

A list argument is opened by looking into arrays and into texts in which an array or object is
written. That comes to an end, since what is looked into weighs less than where it was found, and no
other function obeys the rules of opening. What comes out is in normal form: nothing in it can be
opened or left out any more, so it is its own list of items.
-/

namespace CodeSearch.Argument

open Json

/-! ## Looking into values -/

/-- The first value is looked into to open the second. -/
inductive LooksInto : Json → Json → Prop
  | item {v : Json} {vs : List Json} (inside : v ∈ vs) : LooksInto v (.arr vs)
  | inText {s : String} {v : Json} (written : written? s = some v) : LooksInto v (.str s)

theorem weight_of_mem {v : Json} {vs : List Json} (inside : v ∈ vs) :
    weight v < weight (.arr vs) := by
  rw [weight, weightOfAll_eq_total]
  induction vs with
  | nil => cases inside
  | cons w vs ih =>
      simp only [total]
      rcases List.mem_cons.mp inside with rfl | later
      · omega
      · have rest := ih later
        omega

theorem LooksInto.weight_lt {v w : Json} (h : LooksInto v w) : weight v < weight w := by
  cases h with
  | item inside => exact weight_of_mem inside
  | inText written => exact weight_of_written? written

theorem LooksInto.wellFounded : WellFounded LooksInto :=
  Subrelation.wf LooksInto.weight_lt (measure weight).wf

/-! ## The rules of opening -/

/-- One level is opened, and what is looked into is opened by `inner`. Nothing is weighed here. -/
def openWith (inner : Json → List Json) : Json → List Json
  | .null => []
  | .arr vs => vs.flatMap inner
  | .str s =>
    match written? s with
    | some v => inner v
    | none => if Text.isAllBlank s then [] else [.str s]
  | v => [v]

/-- To open a value only what is looked into has to be known. -/
theorem openWith_congr {f g : Json → List Json} {w : Json}
    (same : ∀ v, LooksInto v w → f v = g v) : openWith f w = openWith g w := by
  cases w with
  | arr vs => exact List.flatMap_congr fun v inside => same v (.item inside)
  | str s =>
      simp only [openWith]
      split
      · exact same _ (.inText ‹_›)
      · rfl
  | _ => rfl

theorem itemsOfAll_eq_flatMap (vs : List Json) : itemsOfAll vs = vs.flatMap items := by
  induction vs with
  | nil => simp only [itemsOfAll, List.flatMap_nil]
  | cons v vs ih => simp only [itemsOfAll, List.flatMap_cons, ih]

theorem openWith_items (v : Json) : openWith items v = items v := by
  cases v with
  | arr vs => simp only [openWith, items, itemsOfAll_eq_flatMap]
  | str s =>
      simp only [openWith]
      split
      · exact (items_of_written? ‹_›).symm
      · exact (items_of_unwritten ‹_›).symm
  | _ => simp only [openWith, items]

/-- Only the items obey the rules. -/
theorem eq_items {f : Json → List Json} (rules : ∀ v, openWith f v = f v) : f = items := by
  funext v
  induction v using LooksInto.wellFounded.induction with
  | h v ih =>
      calc
        f v = openWith f v := (rules v).symm
        _ = openWith items v := openWith_congr ih
        _ = items v := openWith_items v

/-! ## Items -/

/-- What can be an item: no null, no array, no blank text, and no text in which an array or object
    is written. -/
def IsItem : Json → Prop
  | .null | .arr _ => False
  | .str s =>
    Text.isAllBlank s = false ∧ ∀ v, ofText? (Text.trim s) = some v → v.isContainer = false
  | _ => True

theorem isItem_str {s : String} :
    IsItem (.str s) ↔ written? s = none ∧ Text.isAllBlank s = false := by
  have closed :
      written? s = none ↔ ∀ v, ofText? (Text.trim s) = some v → v.isContainer = false := by
    simp only [Option.eq_none_iff_forall_ne_some, ne_eq, written?_iff, not_and, Bool.not_eq_true]
  rw [closed, and_comm]
  rfl

theorem isItem_of_mem_items {v w : Json} (inside : w ∈ items v) : IsItem w := by
  induction v using LooksInto.wellFounded.induction with
  | h v ih =>
      rw [← openWith_items] at inside
      cases v with
      | null => cases inside
      | arr vs =>
          obtain ⟨u, member, inside⟩ := List.mem_flatMap.mp inside
          exact ih u (.item member) inside
      | str s =>
          simp only [openWith] at inside
          split at inside
          · exact ih _ (.inText ‹_›) inside
          · rename_i unwritten
            split at inside
            · cases inside
            · rename_i visible
              rw [List.mem_singleton.mp inside]
              exact isItem_str.mpr ⟨unwritten, Bool.eq_false_iff.mpr visible⟩
      | _ => exact List.mem_singleton.mp inside ▸ trivial

theorem items_of_isItem {v : Json} (item : IsItem v) : items v = [v] := by
  cases v with
  | null | arr => cases item
  | str s =>
      obtain ⟨unwritten, visible⟩ := isItem_str.mp item
      rw [items_of_unwritten unwritten, if_neg (Bool.eq_false_iff.mp visible)]
  | _ => simp only [items]

theorem items_arr_eq_self_iff {vs : List Json} : items (.arr vs) = vs ↔ ∀ v ∈ vs, IsItem v := by
  refine ⟨fun same v inside => isItem_of_mem_items (same.symm ▸ inside), fun each => ?_⟩
  calc
    items (.arr vs) = vs.flatMap items := (openWith_items (.arr vs)).symm
    _ = vs.flatMap fun v => [v] :=
      List.flatMap_congr fun v inside => items_of_isItem (each v inside)
    _ = vs := List.flatMap_singleton' vs

/-- Opening comes to an end, its rules have the items for their only outcome, and the items are in
    normal form: what is opened once is not opened any further. -/
theorem items_normalize :
    WellFounded LooksInto ∧
    (∀ f : Json → List Json, (∀ v, openWith f v = f v) ↔ f = items) ∧
    ∀ v, (∀ w ∈ items v, IsItem w) ∧ items (.arr (items v)) = items v := by
  refine ⟨LooksInto.wellFounded, fun f => ⟨eq_items, ?_⟩, fun v => ?_⟩
  · rintro rfl
    exact openWith_items
  · have each : ∀ w ∈ items v, IsItem w := fun w => isItem_of_mem_items
    exact ⟨each, items_arr_eq_self_iff.mpr each⟩

end CodeSearch.Argument
