import CodeSearch.FilePath
import CodeSearch.Syntax.Source
import CodeSearch.Time.Instant

/-! # Projects

A project is a directory with all files below it. Directories are known by the files in them; the
root is there even if it is empty.
-/

namespace CodeSearch

open Syntax (Source)
open Time (Instant)

structure ProjectFile where
  /-- Components of the path from the root. -/
  place : List String
  /-- The content, if it is a text. -/
  source : Option Source
  modifiedAt : Instant
  deriving Repr, Inhabited

/-- A directory with the files below it. A file alone is a project too, of which it is the only
    file and has no components. -/
structure Project where
  root : String
  files : List ProjectFile
  deriving Repr, Inhabited

namespace Project

/-- Whether something lies below a place. -/
def isDirectory (p : Project) (place : List String) : Bool :=
  place.isEmpty || p.files.any fun f => place.length < f.place.length && place.isPrefixOf f.place

/-- Whether a place is a directory or a file. -/
def isThere (p : Project) (place : List String) : Bool :=
  p.isDirectory place || p.files.any (·.place == place)

/-- Walk from a place over components, of which each but the last has to lead to a directory. There
    is no way out of the root. -/
def walk? (p : Project) (place : List String) : List String → Option (List String)
  | [] => if p.isThere place then some place else none
  | part :: rest =>
    if !p.isDirectory place then none
    else if part = "" || part = "." then walk? p place rest
    else if part = ".." then if place.isEmpty then none else walk? p place.dropLast rest
    else walk? p (place ++ [part]) rest

def below (p : Project) (place : List String) : Project :=
  { root := "/".intercalate (p.root :: place)
    files := (p.files.filter fun f => place.isPrefixOf f.place).map fun f =>
      { f with place := f.place.drop place.length } }

/-- The part of a project that a path leads to. The path starts with that of the root. -/
def find? (p : Project) (path : String) : Option Project := do
  let rest ← Text.stripStart? path p.root
  match Text.split rest '/' with
  | "" :: parts => (walk? p [] parts).map p.below
  | _ => none

end Project

end CodeSearch
