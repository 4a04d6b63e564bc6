import CodeSearch.Config.Basic
import CodeSearch.Index.FileTable
import CodeSearch.Project.Basic

/-! # Scanning a project

A scan finds the files that can be indexed: those in a supported language that are not excluded.
Files and directories are excluded by globs, and directories also when their name starts with a
dot. Of two files the one comes first that does so in the first directory in which they part.
-/

namespace CodeSearch

structure Scan where
  changes : List FileChange
  /-- Number of the files that are no text. -/
  skipped : Nat
  deriving Repr, Inhabited

namespace Scan

def pathOf (place : List String) : String :=
  "/".intercalate place

/-- Whether a directory is passed over. -/
def excludesDirectory (globs : List Glob) (place : List String) : Bool :=
  (place.getLast?.any fun name => Text.startsWith name ".") ||
    globs.any (·.accepts (pathOf place))

/-- The directories between the root and a file. -/
def directoriesOf (place : List String) : List (List String) :=
  (List.range (place.length - 1)).map fun n => place.take (n + 1)

/-- Whether a file is passed over, by itself or with a directory. -/
def excludes (globs : List Glob) (place : List String) : Bool :=
  (directoriesOf place).any (excludesDirectory globs) || globs.any (·.accepts (pathOf place))

/-- The files that are looked at, in order. -/
def candidates (globs : List Glob) (p : Project) : List ProjectFile :=
  let kept := p.files.filter fun f =>
    (Language.ofPath? (pathOf f.place)).isSome && !excludes globs f.place
  kept.mergeSort fun a b => !(b.place < a.place)

def changeOf (f : ProjectFile) : Option FileChange :=
  f.source.map fun source =>
    { path := pathOf f.place, source, modifiedAt := some f.modifiedAt }

def ofProject (globs : List Glob) (p : Project) : Scan :=
  let found := candidates globs p
  { changes := found.filterMap changeOf
    skipped := found.countP (·.source.isNone) }

end Scan

end CodeSearch
