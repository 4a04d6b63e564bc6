import CodeSearch.Index.Basic
import CodeSearch.Symbol.Diff

/-! # Passes

A pass brings one change of a file into the index. It goes in steps, between which other passes
may go on: it registers its event, asks for the lock of its path and takes it, parses and extracts,
compares with the version that is held, embeds what is new, and commits. At each stage it stops
when a later event for its path came in. Nothing of the index is replaced before the commit.
-/

namespace CodeSearch

open Syntax (Parsed)
open Time (Instant)

/-- Numbers of symbols of a new version. -/
structure VersionCounts where
  added : Nat
  modified : Nat
  removed : Nat
  unchanged : Nat
  embedded : Nat
  deriving Repr, DecidableEq, Inhabited

inductive PassOutcome where
  /-- A new version was committed. -/
  | indexed (counts : VersionCounts)
  /-- The content is that of the version held. -/
  | unchanged
  /-- The file was dropped with its symbols. -/
  | removed (symbols : Nat)
  /-- A later event for the path took over. -/
  | superseded
  /-- A file that was not held was to be dropped. -/
  | notIndexed
  deriving Repr, DecidableEq, Inhabited

/-- The report of a pass. -/
structure Ack where
  path : String
  /-- The version that is now held, if one is. -/
  version : Option Nat
  generation : Nat
  outcome : PassOutcome
  deriving Repr, DecidableEq, Inhabited

/-- Why a pass did not end with a report. -/
inductive PassError where
  | index (cause : IndexError)
  /-- The time of the next attempt could not be given. -/
  | beyondCalendar
  deriving Repr

/-- What is to be done with a file. -/
inductive Request where
  | index (change : FileChange)
  | remove (path : String)
  deriving Repr, Inhabited

def Request.path : Request → String
  | index change => change.path
  | remove path => path

/-- A change whose language is known. -/
structure Job where
  change : FileChange
  unit : SourceUnit
  /-- The version that is held, with its symbols. -/
  previous : Option (UnitEntry × List Symbol)
  deriving Repr, Inhabited

namespace Job

/-- The symbols that are held of the file. -/
def old (j : Job) : List Symbol :=
  j.previous.elim [] (·.2)

/-- The symbols of the file that have a vector. -/
def embedded (j : Job) : IdSet :=
  j.previous.elim [] (·.1.embedded)

end Job

/-- A new version that was compared with the one that is held. -/
structure Plan where
  job : Job
  /-- All symbols of the new version. -/
  symbols : List Symbol
  changedNames : List String
  toEmbed : List Symbol
  /-- Symbols whose vector stays. -/
  kept : List Symbol
  /-- Vectors to drop. -/
  deletes : List SymbolId
  counts : VersionCounts
  deriving Repr, Inhabited

namespace Plan

/-- A symbol that did not change keeps its time and author. -/
def keepStamp (changed : List SymbolId) (old : List Symbol) (s : Symbol) : Symbol :=
  if changed.contains s.id then s
  else
    match old.reverse.find? (·.id == s.id) with
    | some previous => { s with modifiedAt := previous.modifiedAt, author := previous.author }
    | none => s

/-- Whether a symbol needs a new vector: it changed, or had none. -/
def isNew (changed embedded : List SymbolId) (s : Symbol) : Bool :=
  changed.contains s.id || !embedded.contains s.id

/-- Compare the symbols of a new version with those held. -/
def of (chunking : Chunking) (job : Job) (extracted : List Symbol) : Plan :=
  let diff := SymbolDiff.between job.old extracted
  let changed := diff.changed.map (·.id)
  let symbols := diff.current.map (keepStamp changed job.old)
  let selected := chunking.select symbols
  let toEmbed := selected.filter (isNew changed job.embedded)
  { job, symbols, toEmbed
    changedNames := (diff.changed.filter (·.kind.isDefinition)).map (·.name)
    kept := selected.filter (!isNew changed job.embedded ·)
    deletes := job.embedded.filter fun id => !selected.any (·.id == id)
    counts :=
      { added := diff.added.length, modified := diff.modified.length
        removed := diff.removed.length, unchanged := diff.unchanged.length
        embedded := toEmbed.length } }

def update (p : Plan) (records : List Record) : UnitUpdate :=
  { unit := p.job.unit, symbols := p.symbols, upserts := records, deletes := p.deletes
    changedNames := p.changedNames }

end Plan

/-- Where a pass stands: what it does next. -/
inductive Phase where
  /-- To ask for the lock of the path. -/
  | begun (request : Request)
  /-- To take the lock of the path, and see whether the event is the latest. -/
  | waiting (request : Request)
  /-- To find the language, and compare with the version held. -/
  | admitted (change : FileChange)
  /-- To note that the version held has the content of the change. -/
  | confirming (version : Nat)
  /-- To enter the stage of parsing. -/
  | beforeParsing (job : Job)
  | parsing (job : Job)
  /-- To enter the stage of extracting. -/
  | beforeExtracting (job : Job) (parsed : Parsed)
  | extracting (job : Job) (parsed : Parsed)
  /-- To enter the stage of embedding. -/
  | beforeEmbedding (plan : Plan)
  /-- To send the texts, beside the records whose vectors stay. -/
  | embedding (plan : Plan) (refreshed : List Record)
  /-- To see whether the event is still the latest. -/
  | beforeCommit (plan : Plan) (records : List Record)
  | committing (plan : Plan) (records : List Record)
  /-- To note that the new version is served. -/
  | marking (plan : Plan)
  /-- To drop the file. -/
  | removing
  /-- To note that the file is served no more. -/
  | clearing (outcome : PassOutcome)
  | ended (result : Except PassError Ack)
  deriving Inhabited

/-- A pass over a path. -/
structure Pass where
  number : Nat
  path : String
  generation : Nat
  /-- Number of the lock, once it was asked for. -/
  lock : Option Nat := none
  phase : Phase
  deriving Inhabited

namespace Pass

/-- Begin a pass: register the event. -/
def start (w : CodeIndex) (request : Request) : CodeIndex × Pass :=
  let path := request.path
  let (generation, files) := w.files.begin path
  ({ w with files, passes := w.passes + 1 },
    { number := w.passes, path, generation, phase := .begun request })

/-- Ask for the lock of the path. -/
def queueUp (w : CodeIndex) (p : Pass) (request : Request) : CodeIndex × Pass :=
  let (lock, locks) := w.locks.request p.path p.number
  ({ w with locks }, { p with lock := some lock, phase := .waiting request })

def holdsLock (w : CodeIndex) (p : Pass) : Bool :=
  p.lock.any fun lock => w.locks.holds lock p.number

/-- End a pass, and let others have the path. -/
def finish (w : CodeIndex) (p : Pass) (result : Except PassError Ack) : CodeIndex × Pass :=
  let locks := p.lock.elim w.locks fun lock => w.locks.release lock p.number
  ({ w with locks }, { p with phase := .ended result })

def report (w : CodeIndex) (p : Pass) (version : Option Nat) (outcome : PassOutcome) :
    CodeIndex × Pass :=
  p.finish w (.ok ⟨p.path, version, p.generation, outcome⟩)

/-- End a pass because a later event took over. -/
def supersede (w : CodeIndex) (p : Pass) : CodeIndex × Pass :=
  p.report w none .superseded

/-- Whether no later event for the path came in. -/
def isLatest (w : CodeIndex) (p : Pass) : Bool :=
  w.files.isCurrent p.path p.generation

/-- End a pass with an error. One that fails the file is noted in the table, unless a later event
    took over. -/
def fail (w : CodeIndex) (p : Pass) (job : Job) (cause : IndexError) : CodeIndex × Pass :=
  match cause.failureKind with
  | none => p.finish w (.error (.index cause))
  | some kind =>
    match w.files.fail w.config.retry w.now p.generation kind cause.message job.change
        job.unit.contentHash with
    | .error _ => p.finish w (.error .beyondCalendar)
    | .ok (none, _) => p.supersede w
    | .ok (some _, files) => p.finish { w with files } (.error (.index cause))

def goOn (w : CodeIndex) (p : Pass) (phase : Phase) : CodeIndex × Pass :=
  (w, { p with phase })

/-- Go on if a stage can be entered, and end otherwise. -/
def enter (w : CodeIndex) (p : Pass) (stage : Stage) (phase : Phase) : CodeIndex × Pass :=
  match w.files.enter p.path p.generation stage with
  | (true, files) => p.goOn { w with files } phase
  | (false, _) => p.supersede w

/-- The version that is held of a path, with its symbols. -/
def held? (w : CodeIndex) (path : String) : Option (UnitEntry × List Symbol) :=
  (w.state.unit? path).map fun entry => (entry, w.state.symbolsOf path)

/-- The new version of a file. -/
def nextUnit (w : CodeIndex) (change : FileChange) (language : Language) (contentHash : String)
    (previous : Option (UnitEntry × List Symbol)) : SourceUnit :=
  { path := change.path, language, contentHash
    version := previous.elim 1 (·.1.unit.version + 1)
    modifiedAt := change.modifiedAt.getD w.now
    author := change.author }

/-- What is to be done for a change of a path whose language is known. -/
def jobOf (w : CodeIndex) (path : String) (change : FileChange) (language : Language) : Job :=
  let previous := held? w path
  let contentHash := Digest.contentHash change.source.text
  { change, unit := nextUnit w change language contentHash previous, previous }

/-- Find the language of a change, and whether its content is new. -/
def identify (w : CodeIndex) (p : Pass) (change : FileChange) : CodeIndex × Pass :=
  match Language.resolve w.registered p.path change.hint with
  | none =>
    p.finish { w with files := w.files.abandon p.path p.generation }
      (.error (.index (.unsupported p.path)))
  | some language =>
    let job := jobOf w p.path change language
    match w.state.unit? p.path with
    | some entry =>
      if entry.unit.contentHash = job.unit.contentHash && entry.unit.language = language then
        p.goOn w (.confirming entry.unit.version)
      else p.goOn w (.beforeParsing job)
    | none => p.goOn w (.beforeParsing job)

/-- Records of the symbols whose vector stays, where the metadata changed. -/
def refreshed (w : CodeIndex) (kept : List Symbol) : List Record :=
  kept.filterMap fun s => do
    let record ← w.state.vectors.get? s.id
    if record.metadata = s.metadata then none else some { record with metadata := s.metadata }

/-- Send the texts of a plan to the embedder. -/
def embed (w : CodeIndex) (p : Pass) (plan : Plan) (kept : List Record) : CodeIndex × Pass :=
  let texts := plan.toEmbed.map w.config.chunking.text
  let w := { w with textsSent := w.textsSent + texts.length }
  let late := s!"timed out after {w.config.pipeline.embedTimeoutMs}ms"
  match w.embedder.embedChecked late texts with
  | .error detail => p.fail w plan.job (.embedding p.path detail)
  | .ok vectors =>
    let records := (plan.toEmbed.zip vectors).map fun (s, vector) => ⟨s.id, vector, s.metadata⟩
    p.goOn w (.beforeCommit plan (kept ++ records))

/-- Drop the file from the index and from the cache. -/
def remove (w : CodeIndex) (p : Pass) : CodeIndex × Pass :=
  let (symbols, state) := w.state.removeUnit p.path
  let (_, cache) := w.cache.erasePath p.path
  p.goOn { w with state, cache } (.clearing (symbols.elim .notIndexed .removed))

/-- Take one step. A pass that waits for its lock, or has ended, stays as it is. -/
def step (w : CodeIndex) (p : Pass) : CodeIndex × Pass :=
  match p.phase with
  | .begun request => p.queueUp w request
  | .waiting request =>
    if !p.holdsLock w then (w, p)
    else if !p.isLatest w then p.supersede w
    else
      match request with
      | .index change => p.goOn w (.admitted change)
      | .remove _ => p.goOn w .removing
  | .admitted change => p.identify w change
  | .confirming version =>
    p.report { w with files := w.files.markIndexed p.path p.generation } (some version) .unchanged
  | .beforeParsing job =>
    p.goOn { w with files := (w.files.enter p.path p.generation .parsing).2 } (.parsing job)
  | .parsing job =>
    let (result, cache) := w.cache.parse w.parseOptions job.change.source job.unit.parseKey
    let w := { w with cache }
    match result with
    | .error cause => p.fail w job (.parse p.path cause)
    | .ok parsed => p.goOn w (.beforeExtracting job parsed)
  | .beforeExtracting job parsed => p.enter w .extracting (.extracting job parsed)
  | .extracting job parsed =>
    match extract? w.registered parsed job.unit w.config.pipeline.snippetChars with
    | .error cause => p.fail w job (.parse p.path cause)
    | .ok symbols => p.goOn w (.beforeEmbedding (Plan.of w.config.chunking job symbols))
  | .beforeEmbedding plan =>
    let kept := refreshed w plan.kept
    p.enter w .embedding
      (if plan.toEmbed.isEmpty then .beforeCommit plan kept else .embedding plan kept)
  | .embedding plan kept => p.embed w plan kept
  | .beforeCommit plan records =>
    if p.isLatest w then p.goOn w (.committing plan records) else p.supersede w
  | .committing plan records =>
    match w.state.commit (plan.update records) with
    | (.error cause, state) => p.fail { w with state } plan.job (.vector cause)
    | (.ok _, state) => p.goOn { w with state } (.marking plan)
  | .marking plan =>
    p.report { w with files := w.files.markIndexed p.path p.generation }
      (some plan.job.unit.version) (.indexed plan.counts)
  | .removing => p.remove w
  | .clearing outcome => p.report { w with files := w.files.markRemoved p.path } none outcome
  | .ended _ => (w, p)

/-- Whether the pass is about to send its texts. -/
def isEmbedding (p : Pass) : Bool :=
  match p.phase with
  | .embedding _ _ => true
  | _ => false

/-- Greatest number of steps of a pass. -/
def maxSteps : Nat := 12

/-- Take one step, if the pass may go on. -/
def stepIf (mayGoOn : Pass → Bool) (standing : CodeIndex × Pass) : CodeIndex × Pass :=
  if mayGoOn standing.2 then standing.2.step standing.1 else standing

def runWhile (mayGoOn : Pass → Bool) (w : CodeIndex) (p : Pass) : CodeIndex × Pass :=
  maxSteps.repeat (stepIf mayGoOn) (w, p)

/-- Take all steps. -/
def run (w : CodeIndex) (p : Pass) : CodeIndex × Pass :=
  p.runWhile (fun _ => true) w

/-- How a pass that has ended did so; one that has not is reported as an error. -/
def result (p : Pass) : Except PassError Ack :=
  match p.phase with
  | .ended result => result
  | _ => .error (.index (.internal "indexing task did not complete"))

end Pass

end CodeSearch
