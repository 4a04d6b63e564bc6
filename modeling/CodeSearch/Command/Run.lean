import CodeSearch.Command.Basic
import CodeSearch.Index.Json
import CodeSearch.Json.Writer
import CodeSearch.Project.Open

/-! # Running commands

A command opens the project at its path and tells what it found: as lines of text, or as JSON.
-/

namespace CodeSearch

open Time (Instant)

/-- What a command tells. -/
inductive Output where
  | text (lines : List String)
  | json (value : Json)
  deriving Repr, Inhabited

/-- What is printed. -/
def Output.render : Output → String
  | text lines => String.join (lines.map (· ++ "\n"))
  | json value => value.pretty ++ "\n"

/-- Why a command told nothing. -/
inductive CommandError where
  | argument (cause : ArgumentError)
  | project (cause : ProjectError)
  | query (cause : IndexError)
  | noSuchSymbol (name : String)
  | index (cause : IndexError)
  deriving Repr

namespace CommandError

def message : CommandError → String
  | argument cause => cause.message
  | project cause => cause.message
  | query _ => "Query failed"
  | noSuchSymbol name => s!"No symbol named '{name}'"
  | index cause => cause.message

end CommandError

namespace Command

/-- The lines that tell how much was indexed. -/
def report (summary : IndexSummary) (stats : IndexStats) : List String :=
  ["", "Indexing complete",
   s!"  Files found: {summary.filesFound}",
   s!"  Indexed: {summary.indexed}",
   s!"  Failed: {summary.failed}",
   s!"  Skipped: {summary.skipped}",
   s!"  Symbols: {stats.symbols}",
   s!"  Embeddings: {stats.embeddings} ({stats.model})"]

def questionArguments (question : String) (filters : List String) (topK : Option Nat)
    (withPatterns : Bool) : Json :=
  .obj [("filters", .ofTexts filters), ("include_patterns", .bool withPatterns),
    ("query", .str question), ("top_k", .ofOption .ofNat topK)]

/-- A definition as it is shown, with more members. -/
def shown (s : Symbol) (more : List (String × Json)) : Json :=
  .ofMembers ([("symbol_id", .str s.id), ("name", .str s.qualifiedName), ("kind", .str s.kind.name),
    ("path", .str s.unit.path), ("line", .ofNat s.span.startLine)] ++ more)

def named (w : CodeIndex) (name : String) : Except CommandError (List Symbol) :=
  match (w.findSymbols name).filter (·.kind.isDefinition) with
  | [] => .error (.noSuchSymbol name)
  | found => .ok found

def similarTo (w : CodeIndex) (threshold : Score) (s : Symbol) : Except CommandError Json := do
  let found ← (w.similar s.id threshold).mapError .index
  let similar := found.filterMap fun (id, score) =>
    (w.state.symbol? id).map fun other => shown other [("similarity", .float score.toFloat)]
  pure (shown s [("similar", .arr similar)])

def patternsIn (w : CodeIndex) (s : Symbol) : Except CommandError Json := do
  let found ← (w.patterns s.id).mapError .index
  pure (shown s [("patterns", .arr (found.map PatternMatch.toJson))])

/-- Do what a command says with the project below a root. -/
def run (project : Project) (now : Instant) : Command → Except CommandError Output
  | index path => do
    let (summary, w) ← (project.load path now).mapError .project
    pure (.text (report summary w.stats))
  | query path question filters topK withPatterns => do
    let arguments := questionArguments question filters topK withPatterns
    let request ← (QueryRequest.ofArguments arguments).mapError .argument
    let (_, w) ← (project.load path now).mapError .project
    let results ← (w.query request).1.mapError .query
    pure (.json (Json.narrow (.arr (results.map RankedResult.toJson))))
  | similar path name threshold => do
    let (_, w) ← (project.load path now).mapError .project
    let shown ← (← named w name).mapM (similarTo w threshold)
    pure (.json (.arr shown))
  | patterns path name => do
    let (_, w) ← (project.load path now).mapError .project
    let shown ← (← named w name).mapM (patternsIn w)
    pure (.json (.arr shown))

end Command

end CodeSearch
