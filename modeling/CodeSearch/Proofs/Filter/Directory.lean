import CodeSearch.FilePath
import CodeSearch.Proofs.Filter
import CodeSearch.Proofs.Text

/-! # Directories

A directory is compared with a path as a text, without the marks at its beginning and the slashes at
its end. What stands in between is not tidied: where a part of it means nothing, no path with parts
that all mean something lies below the directory, although the directory has the same components
without that part. A directory that is written as `.` alone is such a one.
-/

/-! ## Parts of paths

Joining two paths with a slash puts the parts of the one in front of the parts of the other. So the
parts of a directory are the first ones of a path where the path is the directory itself, or goes on
behind a slash.
-/

namespace CodeSearch.FilePath

/-- Every part between two slashes means something. -/
def IsPlain (path : String) : Prop :=
  ∀ part ∈ Text.split path '/', part ≠ "" ∧ part ≠ "."

instance : DecidablePred IsPlain :=
  fun _ => inferInstanceAs (Decidable (∀ _ ∈ _, _))

section

variable {a b dir path : String}

theorem split_append (a b : String) :
    Text.split (a ++ "/" ++ b) '/' = Text.split a '/' ++ Text.split b '/' :=
  Text.split_append rfl a b

theorem split_injective (same : Text.split a '/' = Text.split b '/') : a = b := by
  rw [Text.split_eq_splitOn, Text.split_eq_splitOn,
    List.map_inj_right fun _ _ => String.ofList_inj.mp] at same
  have joined := congrArg (['/'].intercalate ·) same
  simp only [List.intercalate_splitOn] at joined
  exact String.toList_inj.mp joined

theorem exists_split {parts : List String} (inside : ∀ part ∈ parts, '/' ∉ part.toList)
    (some : parts ≠ []) : ∃ path, Text.split path '/' = parts := by
  refine ⟨String.ofList (['/'].intercalate (parts.map String.toList)), ?_⟩
  rw [Text.split_eq_splitOn, String.toList_ofList,
    List.splitOn_intercalate '/' (List.forall_mem_map.mpr inside) (by simpa using some)]
  simp

/-- The parts of a directory come first where the path is the directory or lies below it. -/
theorem split_prefix_iff :
    Text.split dir '/' <+: Text.split path '/' ↔
      path = dir ∨ ∃ rest, path = dir ++ "/" ++ rest := by
  constructor
  · rintro ⟨more, whole⟩
    by_cases none : more = []
    · rw [none, List.append_nil] at whole
      exact .inl (split_injective whole).symm
    · have inside : ∀ part ∈ more, '/' ∉ part.toList := fun part inside =>
        Text.not_mem_of_mem_split (whole ▸ List.mem_append_right _ inside)
      obtain ⟨rest, rfl⟩ := exists_split inside none
      rw [← split_append] at whole
      exact .inr ⟨rest, (split_injective whole).symm⟩
  · rintro (rfl | ⟨rest, rfl⟩)
    · exact List.prefix_rfl
    · exact ⟨_, (split_append dir rest).symm⟩

theorem isPlain_append : IsPlain (a ++ "/" ++ b) ↔ IsPlain a ∧ IsPlain b := by
  simp only [IsPlain, split_append, List.forall_mem_append]

theorem components_append (a b : String) :
    components (a ++ "/" ++ b) = components a ++ components b := by
  simp only [components, split_append, List.filter_append]

theorem components_of_plain (plain : IsPlain path) : components path = Text.split path '/' := by
  refine List.filter_eq_self.mpr fun part inside => ?_
  obtain ⟨some, other⟩ := plain part inside
  simp [some, other]

/-! ## Marks and slashes -/

theorem components_marks (n : Nat) (cs : List Char) :
    components (String.ofList ((List.replicate n "./".toList).flatten ++ cs)) =
      components (String.ofList cs) := by
  induction n with
  | zero => rfl
  | succ n ih =>
      have first : String.ofList ((List.replicate (n + 1) "./".toList).flatten ++ cs) =
          "." ++ "/" ++ String.ofList ((List.replicate n "./".toList).flatten ++ cs) := by
        rw [← String.toList_inj]
        simp [String.toList_append, List.replicate_succ]
      rw [first, components_append, ih]
      rfl

theorem components_slashes (cs : List Char) (n : Nat) :
    components (String.ofList (cs ++ List.replicate n '/')) = components (String.ofList cs) := by
  induction n with
  | zero => rw [List.replicate_zero, List.append_nil]
  | succ n ih =>
      have last : String.ofList (cs ++ List.replicate (n + 1) '/') =
          String.ofList (cs ++ List.replicate n '/') ++ "/" ++ "" := by
        rw [← String.toList_inj]
        simp [String.toList_append, List.replicate_succ']
      rw [last, components_append, ih]
      exact List.append_nil _

/-- A path whose parts all mean something does not begin with a mark. -/
theorem after?_mark (plain : path = "" ∨ IsPlain path) (n : Nat) :
    Text.after? "./".toList (path.toList ++ List.replicate n '/') = none := by
  rw [← Option.not_isSome_iff_eq_none, Text.isSome_after?]
  rintro ⟨rest, text⟩
  have mark : "./".toList = ['.', '/'] := rfl
  rw [mark] at text
  rcases plain with rfl | plain
  · cases n <;> cases text
  · match parts : path.toList with
    | [] =>
        rw [String.toList_eq_nil_iff.mp parts] at plain
        exact absurd plain (by decide)
    | [c] =>
        rw [parts] at text
        obtain rfl : c = '.' := (List.cons.inj text).1
        rw [← String.ofList_toList (s := path), parts] at plain
        exact absurd plain (by decide)
    | c :: d :: cs =>
        rw [parts] at text
        obtain ⟨rfl, behind⟩ := List.cons.inj text
        obtain rfl : d = '/' := (List.cons.inj behind).1
        have whole : path = "." ++ "/" ++ String.ofList cs := by
          rw [← String.toList_inj, parts]
          simp [String.toList_append]
        rw [whole, isPlain_append] at plain
        exact absurd plain.1 (by decide)

theorem getLast?_of_plain (plain : path = "" ∨ IsPlain path) :
    ∀ c ∈ path.toList.getLast?, c ≠ '/' := by
  rintro c last rfl
  obtain ⟨front, whole⟩ := List.getLast?_eq_some_iff.mp last
  rcases plain with rfl | plain
  · cases last
  · have parts : path = String.ofList front ++ "/" ++ "" := by
      rw [← String.toList_inj, whole]
      simp [String.toList_append]
    rw [parts, isPlain_append] at plain
    exact absurd plain.2 (by decide)

end

end CodeSearch.FilePath

/-! ## Tidy directories -/

namespace CodeSearch

open FilePath

namespace FilterSet

/-- The text of a directory: marks of the place where it starts, what is compared, and slashes. -/
def IsWritten (dir core : String) : Prop :=
  ∃ marks slashes, dir.toList =
    (List.replicate marks "./".toList).flatten ++ (core.toList ++ List.replicate slashes '/')

/-- What is compared is nothing, or its parts all mean something. -/
def IsTidy (dir : String) : Prop :=
  ∃ core, IsWritten dir core ∧ (core = "" ∨ IsPlain core)

section

variable {dir core path : String}

theorem components_of_written (written : IsWritten dir core) : components dir = components core := by
  obtain ⟨marks, slashes, text⟩ := written
  have whole := congrArg String.ofList text
  rw [String.ofList_toList] at whole
  rw [whole, components_marks, components_slashes, String.ofList_toList]

theorem toList_normalizeDirectory (trimmed : Text.trim dir = dir) :
    (normalizeDirectory dir).toList =
      Text.dropEndWhile (· == '/') (Text.trimStartText dir "./").toList := by
  simp only [normalizeDirectory, trimmed, String.toList_ofList]

/-- The text that is compared is written in the directory. -/
theorem written_normalizeDirectory (trimmed : Text.trim dir = dir) :
    IsWritten dir (normalizeDirectory dir) := by
  obtain ⟨marks, front⟩ := Text.exists_dropAll "./".toList dir.toList.length dir.toList
  obtain ⟨tail, back, slashes⟩ := Text.exists_dropEndWhile (· == '/')
    (Text.dropAll "./".toList dir.toList.length dir.toList)
  refine ⟨marks, tail.length, ?_⟩
  have all : tail = List.replicate tail.length '/' :=
    List.eq_replicate_iff.mpr ⟨rfl, fun c inside => beq_iff_eq.mp (slashes c inside)⟩
  rw [toList_normalizeDirectory trimmed, ← all, Text.toList_trimStartText, ← back]
  exact front

/-- A tidy directory is compared by what it is written around. -/
theorem normalizeDirectory_of_written (trimmed : Text.trim dir = dir) (written : IsWritten dir core)
    (plain : core = "" ∨ IsPlain core) : normalizeDirectory dir = core := by
  obtain ⟨marks, slashes, text⟩ := written
  rw [← String.toList_inj, toList_normalizeDirectory trimmed,
    Text.trimStartText_eq (by decide) text (after?_mark plain slashes), Text.dropEndWhile_append]
  · intro c inside
    exact beq_iff_eq.mpr (List.eq_of_mem_replicate inside)
  · intro c last
    exact beq_eq_false_iff_ne.mpr (getLast?_of_plain plain c last)

theorem isTidy_iff (trimmed : Text.trim dir = dir) :
    IsTidy dir ↔ normalizeDirectory dir = "" ∨ IsPlain (normalizeDirectory dir) := by
  constructor
  · rintro ⟨core, written, plain⟩
    rwa [normalizeDirectory_of_written trimmed written plain]
  · exact fun plain => ⟨_, written_normalizeDirectory trimmed, plain⟩

theorem trimStartText_of_plain (plain : IsPlain path) : Text.trimStartText path "./" = path := by
  have other := after?_mark (.inr plain) 0
  rw [List.replicate_zero, List.append_nil] at other
  have text : path.toList = (List.replicate 0 "./".toList).flatten ++ path.toList := rfl
  exact String.toList_inj.mp (Text.trimStartText_eq (by decide) text other)

theorem isBelow_iff_split (plain : IsPlain path) :
    isBelow dir path = true ↔ normalizeDirectory dir = "" ∨
      Text.split (normalizeDirectory dir) '/' <+: Text.split path '/' := by
  unfold isBelow
  dsimp only
  rw [trimStartText_of_plain plain, split_prefix_iff, Bool.or_eq_true, Bool.or_eq_true,
    String.isEmpty_iff, beq_iff_eq, Text.startsWith_iff, or_assoc]

theorem isBelow_iff (trimmed : Text.trim dir = dir) (plain : IsPlain path) :
    isBelow dir path = true ↔ IsTidy dir ∧ components dir <+: components path := by
  rw [isBelow_iff_split plain, isTidy_iff trimmed,
    components_of_written (written_normalizeDirectory trimmed), components_of_plain plain]
  constructor
  · rintro (none | first)
    · rw [none]
      exact ⟨.inl rfl, List.nil_prefix⟩
    · have core : IsPlain (normalizeDirectory dir) := fun part inside =>
        plain part (first.subset inside)
      rw [components_of_plain core]
      exact ⟨.inr core, first⟩
  · rintro ⟨none | core, first⟩
    · exact .inl none
    · rw [components_of_plain core] at first
      exact .inr first

theorem directory_valid (some : Text.isAllBlank dir = false) :
    (Filter.directory dir).validate = .ok () :=
  if_neg (Bool.eq_false_iff.mp some)

theorem directory_accepts (some : Text.isAllBlank dir = false) (trimmed : Text.trim dir = dir) :
    ∃ set, FilterSet.ofList [.directory dir] = .ok set ∧
      ∀ m : Metadata, IsPlain m.path →
        (set.matchesMetadata m = true ↔
          IsTidy dir ∧ components dir <+: components m.path) := by
  obtain ⟨set, made, accepts⟩ := ofList_alone (directory_valid some) nofun nofun
  refine ⟨set, made, fun m plain => ?_⟩
  rw [accepts, admitsEntry]
  exact isBelow_iff trimmed plain

/-- A file below the directory `src`. -/
def appFile : Metadata where
  language := .python
  path := "src/app.py"
  kind := .function
  modifiedAt := ⟨0, 0⟩
  author := none

theorem appFile_plain : IsPlain appFile.path := by
  decide

theorem src_accepts : Text.isAllBlank "./src/" = false ∧ Text.trim "./src/" = "./src/" ∧
    IsPlain appFile.path ∧
    ∃ set, FilterSet.ofList [.directory "./src/"] = .ok set ∧ set.matchesMetadata appFile = true := by
  have some : Text.isAllBlank "./src/" = false := by decide
  have trimmed : Text.trim "./src/" = "./src/" := by decide
  have tidy : IsTidy "./src/" := ⟨"src", ⟨1, 1, by decide⟩, .inr (by decide)⟩
  obtain ⟨set, made, accepts⟩ := directory_accepts some trimmed
  exact ⟨some, trimmed, appFile_plain, set, made,
    (accepts appFile appFile_plain).mpr ⟨tidy, by decide⟩⟩

/-- The directory where all files are, written as a part that means nothing. -/
theorem dot_refuses : Text.isAllBlank "." = false ∧ Text.trim "." = "." ∧ IsPlain appFile.path ∧
    components "." <+: components appFile.path ∧
    ∃ set, FilterSet.ofList [.directory "."] = .ok set ∧ set.matchesMetadata appFile = false := by
  have some : Text.isAllBlank "." = false := by decide
  obtain ⟨set, made, accepts⟩ := ofList_alone (directory_valid some) nofun nofun
  refine ⟨some, by decide, appFile_plain, List.nil_prefix, set, made, ?_⟩
  rw [accepts]
  decide

end

end FilterSet

end CodeSearch
