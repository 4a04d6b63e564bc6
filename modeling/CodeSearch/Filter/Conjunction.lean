import CodeSearch.Filter.Basic
import CodeSearch.Vector.Basic

/-! # Conjunctions of filters

A query holds several filters, and a symbol has to pass all of them.
-/

namespace CodeSearch

/-- Filters that are all valid, with the globs that they write. -/
structure FilterSet where
  entries : List (Filter × Option Glob) := []
  deriving Repr, Inhabited

namespace FilterSet

/-- A filter with its glob, if it is valid. -/
def entryOf (f : Filter) : Except FilterError (Filter × Option Glob) := do
  f.validate
  match f with
  | .pathInclude glob | .pathExclude glob => pure (f, some (← Filter.globOf glob))
  | _ => pure (f, none)

/-- Accept filters that are all valid; the first invalid one is the error. -/
def ofList (filters : List Filter) : Except FilterError FilterSet := do
  pure ⟨← filters.mapM entryOf⟩

/-- The explicit filters, and those inferred ones whose type no explicit filter has. -/
def merge (explicit inferred : List Filter) : List Filter :=
  let given := explicit.map (·.type)
  inferred.foldl (fun filters f =>
    if given.contains f.type || filters.contains f then filters else filters ++ [f]) explicit

def withInferred (explicit inferred : List Filter) : Except FilterError FilterSet :=
  ofList (merge explicit inferred)

def filters (s : FilterSet) : List Filter :=
  s.entries.map (·.1)

def isEmpty (s : FilterSet) : Bool :=
  s.entries.isEmpty

/-- Whether some filter looks at metadata. -/
def hasMetadataFilters (s : FilterSet) : Bool :=
  s.filters.any (!·.type.looksAtPatterns)

/-- Whether some filter looks at patterns. -/
def hasPatternFilters (s : FilterSet) : Bool :=
  s.filters.any (·.type.looksAtPatterns)

/-- A directory without marks of the place where it starts and slashes at its end. -/
def normalizeDirectory (dir : String) : String :=
  let bare := Text.trimStartText (Text.trim dir) "./"
  String.ofList (Text.dropEndWhile (· == '/') bare.toList)

/-- Whether a path is a directory or lies below it. -/
def isBelow (dir path : String) : Bool :=
  let dir := normalizeDirectory dir
  let path := Text.trimStartText path "./"
  dir.isEmpty || path == dir || Text.startsWith path (dir ++ "/")

/-- Whether metadata pass one filter; a filter that looks at patterns lets all pass. -/
def admitsEntry (m : Metadata) : Filter × Option Glob → Bool
  | (.language l, _) => m.language == l
  | (.pathInclude _, glob) => glob.any (·.accepts m.path)
  | (.pathExclude _, glob) => !glob.any (·.accepts m.path)
  | (.author name, _) => m.author.any (Text.eqIgnoringAsciiCase · (Text.trim name))
  | (.kind k, _) => m.kind == k
  | (.dateRange earliest latest, _) =>
    earliest.all (·.le m.modifiedAt) && latest.all (m.modifiedAt.le ·)
  | (.directory dir, _) => isBelow dir m.path
  | (.patternType _, _) => true
  | (.minConfidence _, _) => true

def matchesMetadata (s : FilterSet) (m : Metadata) : Bool :=
  s.entries.all (admitsEntry m)

def wantedPatterns (s : FilterSet) : List Pattern :=
  s.filters.filterMap fun f => match f with
    | .patternType p => some p
    | _ => none

def leastConfidence (s : FilterSet) : Option Score :=
  let asked := s.filters.filterMap fun f => match f with
    | .minConfidence c => some c
    | _ => none
  match asked with
  | [] => none
  | c :: rest => some (rest.foldl (fun a b => if a < b then b else a) c)

/-- Whether the matches of a symbol pass all filters that look at patterns. Every pattern that is
    asked for has to be matched with enough confidence; without one, any match will do. -/
def matchesPatterns (s : FilterSet) (found : List PatternMatch) : Bool :=
  let least := s.leastConfidence
  let enough (m : PatternMatch) : Bool := least.getD 0 ≤ m.confidence
  match s.wantedPatterns with
  | [] => least.isNone || found.any enough
  | wanted => wanted.all fun p => found.any fun m => m.pattern == p && enough m

end FilterSet

end CodeSearch
