import CodeSearch.Text.Split

/-! # File paths

A path is a text of components separated by slashes. Empty components and `.` mean nothing.
-/

namespace CodeSearch.FilePath

/-- The components that mean something. -/
def components (path : String) : List String :=
  (Text.split path '/').filter fun part => part != "" && part != "."

/-- The last component, when it names something. -/
def fileName? (path : String) : Option String :=
  match (components path).getLast? with
  | some ".." => none
  | last => last

/-- What follows the last dot of the file name; a name that only starts with a dot has none. -/
def extension? (path : String) : Option String := do
  let name ← fileName? path
  let (ext, stem) ← Text.cutAt? (· == '.') name.toList.reverse
  if stem.isEmpty then none else some (String.ofList ext.reverse)

end CodeSearch.FilePath
