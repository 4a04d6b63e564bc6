import CodeSearch.Config.Settings
import CodeSearch.Index.Operations
import CodeSearch.Project.Scan
import CodeSearch.Toml.Reader
import CodeSearch.Toml.Writer

/-! # Opening a project

To open a project is to read its configuration, to build an index by it, and to index what a scan
finds. A project can have a file with its configuration. What it does not mention keeps its default,
and so does everything when there is no file.
-/

namespace CodeSearch

/-- Why a configuration file was not accepted. -/
inductive ConfigFileError where
  | notText
  /-- The text is no configuration. -/
  | unreadable
  | invalid (cause : IndexError)
  deriving Repr

namespace IndexConfig

def fileName : String := ".leindex/config.toml"

/-- Read the text of a file, if there is one. -/
def ofFile? (text : Option String) : Except ConfigFileError IndexConfig :=
  match text with
  | none => .ok {}
  | some text =>
    match (Toml.ofText? text).bind codec.read? with
    | none => .error .unreadable
    | some c => c.validate.mapError .invalid |>.map fun _ => c

/-- The text of the file, unless some number is too large. -/
def toFile? (c : IndexConfig) : Option String :=
  match codec.write c with
  | .obj members => Toml.render? members
  | _ => none

end IndexConfig

open Time (Instant)

/-- Why a project was not opened. -/
inductive ProjectError where
  | noSuchPath (path : String)
  /-- The configuration file was not accepted. -/
  | config (file : String) (cause : ConfigFileError)
  /-- The excluded files cannot be told. -/
  | exclusions (cause : IndexError)
  /-- No index can be built by the configuration. -/
  | refused (cause : IndexError)
  deriving Repr

namespace ProjectError

def message : ProjectError → String
  | noSuchPath path => s!"Failed to canonicalize project path: {path}"
  | config file cause =>
    let quoted := Text.quoted file
    match cause with
    | .notText => s!"Failed to read config file: {quoted}"
    | .unreadable => s!"Failed to parse config file: {quoted}"
    | .invalid _ => s!"Invalid config file: {quoted}"
  | exclusions cause => cause.message
  | refused _ => "Failed to create index"

end ProjectError

/-- What became of the files of a project. -/
structure IndexSummary where
  /-- Files that a scan finds. -/
  filesFound : Nat
  /-- Files of which the content is now held. -/
  indexed : Nat
  failed : Nat
  /-- Files that are no text. -/
  skipped : Nat
  deriving Repr, DecidableEq, Inhabited

namespace Project

def config (p : Project) : Except ConfigFileError IndexConfig :=
  let place := FilePath.components IndexConfig.fileName
  match p.files.find? (·.place == place) with
  | none => if p.isDirectory place then .error .notText else .ok {}
  | some file =>
    match file.source with
    | none => .error .notText
    | some source => IndexConfig.ofFile? (some source.text)

def summarize (w : CodeIndex) (scan : Scan) : IndexSummary × CodeIndex :=
  let (results, w) := w.indexBatch scan.changes
  let indexed := results.countP (·.isOk)
  ({ filesFound := scan.changes.length + scan.skipped, indexed
     failed := results.length - indexed, skipped := scan.skipped }, w)

/-- Open the part of a project that a path leads to. -/
def load (p : Project) (path : String) (now : Instant) :
    Except ProjectError (IndexSummary × CodeIndex) := do
  let some part := p.find? path | throw (.noSuchPath path)
  let c ← part.config.mapError (.config s!"{part.root}/{IndexConfig.fileName}")
  let w ← (CodeIndex.build c {} now).mapError .refused
  let globs ← c.exclusions.globs.mapError .exclusions
  pure (summarize w (Scan.ofProject globs part))

end Project

end CodeSearch
