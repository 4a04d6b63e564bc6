import CodeSearch.Argument.Request
import CodeSearch.Proofs.Argument.Items
import CodeSearch.Proofs.Json.RoundTrip

/-! # Shapes of filters

The same filters can be given as an object, as a list of objects with a type and a value, as a list
of pairs, and as a text in which one of these is written. The shapes agree, but for a single object
with a type and a value, and for values in which an array or object is written.
-/

namespace CodeSearch.Argument

/-! ## Lists with one item -/

theorem items_obj (members : List (String × Json)) : items (.obj members) = [.obj members] := by
  simp [items]

/-- The filters of a list whose only item is known. -/
theorem filters_of_items {v item : Json} (noObject : ∀ members, v ≠ .obj members)
    (only : items v = [item]) : filters v = filtersOfItem item := by
  have listed : filters v = (items v).mapM filtersOfItem >>= fun lists => pure lists.flatten := by
    cases v with
    | obj members => exact absurd rfl (noObject members)
    | _ => rfl
  rw [listed, only, mapM_singleton, flatten_singleton]

theorem items_singleton (v : Json) : items (.arr [v]) = items v := by
  simp [items, itemsOfAll]

theorem filters_object_in_list (members : List (String × Json)) :
    filters (.arr [.obj members]) = filtersOfObject members :=
  filters_of_items (by rintro _ ⟨⟩) ((items_singleton _).trans (items_obj members))

theorem filters_member (key : String) (value : Json) :
    filters (.obj [(key, value)]) = filtersOfValue key value := by
  rw [filters, filtersOfMembers, mapM_singleton]
  exact flatten_singleton _

/-! ## Filters that are written in a text -/

/-- The type and the value that an object names, if it names both. -/
def typed? (v : Json) : Option (String × Json) :=
  match v.get? "type", v.get? "value" with
  | some (.str key), some value => some (key, value)
  | _, _ => none

theorem filtersOfObject_eq (members : List (String × Json)) :
    filtersOfObject members =
      match typed? (.obj members) with
      | some (key, value) => filtersOfValue key value
      | none => filtersOfMembers members := by
  unfold filtersOfObject
  split
  · rename_i type given
    simp only [typed?, type, given]
  · rename_i other
    have untyped : typed? (.obj members) = none := by
      unfold typed?
      split
      · exact (other _ _ ‹_› ‹_›).elim
      · rfl
    rw [untyped]

theorem mem_of_get? {key : String} {v : Json} {members : List (String × Json)}
    (found : (Json.obj members).get? key = some v) : (key, v) ∈ members := by
  obtain ⟨⟨k, w⟩, first, rfl⟩ := Option.map_eq_some_iff.mp found
  have same : k = key := by simpa using List.find?_some first
  exact same ▸ List.mem_of_find?_eq_some first

theorem mem_of_typed? {members : List (String × Json)} {key : String} {value : Json}
    (typed : typed? (.obj members) = some (key, value)) : ("type", .str key) ∈ members := by
  simp only [typed?] at typed
  split at typed
  · cases typed
    exact mem_of_get? ‹_›
  · cases typed

/-- No filter has the key under which an object names the type of its filter. -/
theorem filtersOfValue_type (v : Json) (fs : List Filter) : filtersOfValue "type" v ≠ .ok fs := by
  have unknown : FilterType.ofKey? "type" = none := rfl
  intro made
  unfold filtersOfValue at made
  split at made
  · rw [unknown] at made
    cases made
  · rename_i some
    obtain ⟨item, rest, listed⟩ := List.exists_cons_of_ne_nil some
    obtain ⟨f, gives⟩ := forall_of_mapM made item (listed ▸ List.mem_cons_self)
    obtain ⟨text, -, read⟩ := ok_of_bind gives
    unfold readFilter Filter.read at read
    simp only [unknown] at read
    cases read

theorem filters_object_in_text {s : String} {members : List (String × Json)}
    (written : written? s = some (.obj members)) : filters (.str s) = filtersOfObject members :=
  filters_of_items (by rintro _ ⟨⟩) ((items_of_written? written).trans (items_obj members))

/-- What is written in a text is read like the value itself. Only an object that names a type and a
    value is read as one filter when it is written in a text, and is refused by itself, since it is
    taken for an object of keys and values then. -/
theorem filters_of_text {v : Json} (container : v.isContainer = true) :
    (∀ s, Json.ofText? (Text.trim s) = some v →
      (typed? v = none → filters (.str s) = filters v) ∧
      ∀ key value, typed? v = some (key, value) →
        filters (.str s) = filtersOfValue key value ∧ ∃ cause, filters v = .error cause) ∧
    (Json.Legible Json.maxDepth v → Json.ofText? (Text.trim v.render) = some v) := by
  refine ⟨fun s encodes => ?_, fun legible => ?_⟩
  · have written := written?_iff.mpr ⟨encodes, container⟩
    cases v with
    | arr vs =>
        refine ⟨fun _ => ?_, fun key value typed => ?_⟩
        · simp only [filters, items_of_written? written]
        · cases typed
    | obj members =>
        have read := filters_object_in_text written
        rw [filtersOfObject_eq] at read
        refine ⟨fun untyped => ?_, fun key value typed => ⟨?_, ?_⟩⟩
        · rw [read, untyped]
          rfl
        · rw [read, typed]
        · cases made : filters (.obj members) with
          | error cause => exact ⟨cause, rfl⟩
          | ok fs =>
              obtain ⟨lists, each, -⟩ := ok_of_bind made
              obtain ⟨fs, gives⟩ := forall_of_mapM each _ (mem_of_typed? typed)
              exact absurd gives (filtersOfValue_type _ fs)
    | _ => cases container
  · rw [Json.trim_render container]
    exact Json.ofText?_render legible

/-- A pair, and an object of keys with a list. -/
def mixedFilters : Json :=
  .arr [.str "author=ada", .obj [("kind", .arr [.str "function", .str "call"])]]

theorem mixedFilters_of_text :
    filters (.str mixedFilters.render) = filters mixedFilters ∧
      filters mixedFilters = .ok [.author "ada", .kind .function, .kind .call] := by
  have legible : Json.Legible Json.maxDepth mixedFilters := by
    refine .arr (List.forall_mem_cons.mpr ⟨.str _, List.forall_mem_singleton.mpr ?_⟩)
    refine .obj (List.pairwise_singleton ..) (List.forall_mem_singleton.mpr ?_)
    exact .arr (List.forall_mem_cons.mpr ⟨.str _, List.forall_mem_singleton.mpr (.str _)⟩)
  obtain ⟨read, back⟩ := filters_of_text (v := mixedFilters) rfl
  refine ⟨(read _ (back legible)).1 rfl, ?_⟩
  have pair : written? "author=ada" = none := rfl
  have function : written? "function" = none := rfl
  have call : written? "call" = none := rfl
  have kinds : filtersOfItem (.obj [("kind", .arr [.str "function", .str "call"])]) =
      .ok [.kind .function, .kind .call] := by
    simp [filtersOfItem, filtersOfObject_eq, typed?, Json.get?, filtersOfMembers, filtersOfValue,
      items, itemsOfAll, items_of_unwritten function, items_of_unwritten call]
    rfl
  simp [mixedFilters, filters, items, itemsOfAll, items_of_unwritten pair, kinds]
  rfl

/-- A single object that names a type and a value. -/
def loneFilter : Json :=
  .obj [("type", .str "language"), ("value", .str "python")]

/-- The text of the object gives a filter, and the object itself is refused. -/
theorem loneFilter_refused :
    Json.ofText? (Text.trim loneFilter.render) = some loneFilter ∧
      filters (.str loneFilter.render) = .ok [.language .python] ∧
      filters loneFilter = .error (.filter (.unknownType "type")) := by
  have back : Json.ofText? (Text.trim loneFilter.render) = some loneFilter := by
    rw [Json.trim_render rfl]
    refine Json.ofText?_render (.obj ?_ ?_)
    · exact List.pairwise_pair.mpr (by decide)
    · exact List.forall_mem_cons.mpr ⟨.str _, List.forall_mem_singleton.mpr (.str _)⟩
  have python : written? "python" = none := rfl
  have language : written? "language" = none := rfl
  refine ⟨back, ?_, ?_⟩
  · rw [filters_object_in_text (written?_iff.mpr ⟨back, rfl⟩), filtersOfObject_eq]
    simp [typed?, Json.get?, filtersOfValue, items_of_unwritten python]
    rfl
  · simp [loneFilter, filters, filtersOfMembers, filtersOfValue, items_of_unwritten language]
    rfl

/-! ## Filters of one key -/

theorem toList_pair (key text : String) :
    (key ++ "=" ++ text).toList = key.toList ++ '=' :: text.toList := by
  rw [String.toList_append, String.toList_append, List.append_assoc]
  rfl

theorem cut?_pair {key : String} (noMark : '=' ∉ key.toList) (text : String) :
    Text.cut? (key ++ "=" ++ text) '=' = some (key, text) := by
  have before : ∀ c ∈ key.toList, (c == '=') = false := fun c inside =>
    beq_eq_false_iff_ne.mpr fun same => noMark (same ▸ inside)
  simp only [Text.cut?, toList_pair, Text.cutAt?_append before (beq_self_eq_true '='),
    Option.map_some, String.ofList_toList]

/-- What follows a key and the mark between key and value is not looked into. -/
theorem written?_pair {key : String} (noArray : '[' ∉ key.toList) (noObject : '\x7b' ∉ key.toList)
    (text : String) : written? (key ++ "=" ++ text) = none := by
  have cut : (key.toList ++ '=' :: text.toList).dropWhile Text.isBlank = _ :=
    List.dropWhile_append
  rw [← toList_pair] at cut
  split at cut
  · refine written?_of_head (cut.trans (List.dropWhile_cons_of_neg ?_)) ?_ ?_
    all_goals decide
  · rename_i some
    rw [List.isEmpty_iff] at some
    obtain ⟨c, rest, head⟩ := List.exists_cons_of_ne_nil some
    have inside : c ∈ key.toList := (List.dropWhile_suffix _).subset (head ▸ List.mem_cons_self)
    rw [head, List.cons_append] at cut
    refine written?_of_head cut ?_ ?_
    · exact fun same => noArray (same ▸ inside)
    · exact fun same => noObject (same ▸ inside)

theorem readFilter_blank {key text : String} {type : FilterType}
    (known : FilterType.ofKey? key = some type) (blank : Text.isAllBlank text = true) :
    readFilter key text = .error (.filter (.emptyValue type)) := by
  have empty : (Text.trim text).isEmpty = true := by
    rw [Text.trim_of_isAllBlank blank]
    rfl
  unfold readFilter Filter.read
  simp only [known, empty, if_true]
  rfl

/-- The filters of a text under a known key: those of the array or object that is written in it, or
    else the one filter of the text. -/
theorem filtersOfValue_text {key : String} {type : FilterType}
    (known : FilterType.ofKey? key = some type) (text : String) :
    filtersOfValue key (.str text) =
      match written? text with
      | some inner => filtersOfValue key inner
      | none => (readFilter key text).map fun f => [f] := by
  cases written : written? text with
  | some inner => simp only [filtersOfValue, items_of_written? written]
  | none =>
      cases blank : Text.isAllBlank text with
      | true =>
          rw [filtersOfValue, items_of_unwritten written, if_pos blank]
          simp only [known, readFilter_blank known blank]
          rfl
      | false =>
          rw [filtersOfValue, items_of_unwritten written, if_neg (Bool.eq_false_iff.mp blank)]
          have single : [Json.str text].mapM (fun v => do readFilter key (← valueText key v)) =
              (readFilter key text).map fun f => [f] := by
            simp only [mapM_singleton, valueText, bind, Except.bind]
          exact single

/-- The shapes of one filter. -/
theorem shapes_agree {key : String} {type : FilterType} (known : FilterType.ofKey? key = some type)
    (noMark : '=' ∉ key.toList) (noArray : '[' ∉ key.toList) (noObject : '\x7b' ∉ key.toList)
    (text : String) :
    filters (.arr [.str (key ++ "=" ++ text)]) = (readFilter key text).map (fun f => [f]) ∧
    filters (.arr [.obj [("type", .str key), ("value", .str text)]]) =
      filters (.obj [(key, .str text)]) ∧
    filters (.obj [(key, .str text)]) =
      match written? text with
      | some inner => filtersOfValue key inner
      | none => (readFilter key text).map fun f => [f] := by
  refine ⟨?_, ?_, ?_⟩
  · have visible : Text.isAllBlank (key ++ "=" ++ text) = false := by
      rw [Text.isAllBlank, toList_pair, List.all_append, List.all_cons]
      simp [Text.isBlank]
    have only : items (.arr [.str (key ++ "=" ++ text)]) = [.str (key ++ "=" ++ text)] := by
      rw [items_singleton, items_of_unwritten (written?_pair noArray noObject text), visible]
      rfl
    rw [filters_of_items (by rintro _ ⟨⟩) only]
    simp only [filtersOfItem, cut?_pair noMark]
    cases readFilter key text with
    | error cause => rfl
    | ok f => rfl
  · rw [filters_object_in_list, filters_member]
    rfl
  · rw [filters_member, filtersOfValue_text known]

theorem language_shapes_agree :
    filters (.arr [.str "language=python"]) = .ok [.language .python] ∧
      filters (.arr [.obj [("type", .str "language"), ("value", .str "python")]]) =
        .ok [.language .python] ∧
      filters (.obj [("language", .str "python")]) = .ok [.language .python] := by
  have read : readFilter "language" "python" = .ok (.language .python) := rfl
  have unwritten : written? "python" = none := rfl
  have known : FilterType.ofKey? "language" = some .language := rfl
  obtain ⟨pair, typed, object⟩ :=
    shapes_agree known (by decide) (by decide) (by decide) "python"
  rw [unwritten] at object
  simp only [read] at pair object
  exact ⟨pair, typed.trans object, object⟩

/-- An author whose name is written like a list: the pair keeps the name, and the other shapes look
    into it. -/
theorem listed_author_differs :
    FilterType.ofKey? "author" = some .author ∧
      filters (.arr [.str "author=[\"ada\"]"]) = .ok [.author "[\"ada\"]"] ∧
      filters (.arr [.obj [("type", .str "author"), ("value", .str "[\"ada\"]")]]) =
        .ok [.author "ada"] ∧
      filters (.obj [("author", .str "[\"ada\"]")]) = .ok [.author "ada"] := by
  have pair : written? "author=[\"ada\"]" = none := rfl
  have list : written? "[\"ada\"]" = some (.arr [.str "ada"]) := rfl
  have ada : written? "ada" = none := rfl
  have value : filtersOfValue "author" (.str "[\"ada\"]") = .ok [.author "ada"] := by
    simp [filtersOfValue, items_of_written? list, items, itemsOfAll, items_of_unwritten ada]
    rfl
  refine ⟨rfl, ?_, ?_, ?_⟩
  · simp [filters, items, itemsOfAll, items_of_unwritten pair]
    rfl
  · exact (filters_object_in_list _).trans value
  · rw [filters_member, value]

end CodeSearch.Argument
