import CodeSearch.Index.Backoff
import CodeSearch.Index.Error
import CodeSearch.Syntax.Source

/-! # The table of files

Every path that was ever touched has an entry: how far the work on it has come, and what to try
again. Each event for a path gets the next generation; work for an older generation has no effect
on the table.
-/

namespace CodeSearch

open Syntax (Source)
open Time (Instant)

/-- New content of a file. -/
structure FileChange where
  path : String
  source : Source
  /-- Language to use in place of the one that the path suggests. -/
  hint : Option Language := none
  /-- Time of the change, if it is known. -/
  modifiedAt : Option Instant := none
  author : Option String := none
  deriving Repr, Inhabited

/-- Stages of the work on a file. -/
inductive Stage where
  | parsing
  | extracting
  | embedding
  deriving Repr, DecidableEq, Inhabited

namespace Stage

def name : Stage → String
  | parsing => "parsing"
  | extracting => "extracting"
  | embedding => "embedding"

def ofName? (s : String) : Option Stage :=
  [parsing, extracting, embedding].find? (·.name == s)

end Stage

structure Failure where
  kind : FailureKind
  /-- How often in a row the same content has failed. -/
  attempts : Nat
  lastError : String
  /-- When the content is tried again, if it is. -/
  nextRetryAt : Option Instant
  deriving Repr, DecidableEq, Inhabited

/-- How far the work on a file has come. -/
inductive FileStatus where
  /-- Never indexed, or removed. -/
  | unindexed
  /-- Indexed for the first time. -/
  | starting (stage : Stage)
  | indexed
  /-- Indexed anew, while the version before is still served. -/
  | reindexing (stage : Stage)
  /-- The last attempt failed; the version before, if any, is still served. -/
  | failed (failure : Failure)
  deriving Repr, DecidableEq, Inhabited

namespace FileStatus

/-- Whether there is work going on. -/
def inProgress : FileStatus → Bool
  | starting _ | reindexing _ => true
  | _ => false

def isFailed : FileStatus → Bool
  | failed _ => true
  | _ => false

end FileStatus

/-- Content that failed, kept for another attempt. -/
structure PendingRetry where
  change : FileChange
  contentHash : String
  attempts : Nat
  deriving Repr, Inhabited

/-- What the table knows of a path. -/
structure FileEntry where
  status : FileStatus := .unindexed
  /-- Number of the latest event. -/
  generation : Nat := 0
  /-- Whether some version is served. -/
  committed : Bool := false
  retry : Option PendingRetry := none
  deriving Repr, Inhabited

/-- What is known of every path that was touched. -/
structure FileTable where
  entries : Keyed String FileEntry := []
  deriving Repr, Inhabited

namespace FileTable

def get? (t : FileTable) (path : String) : Option FileEntry :=
  Keyed.get? t.entries path

def put (t : FileTable) (path : String) (e : FileEntry) : FileTable :=
  ⟨Keyed.put t.entries path e⟩

def status (t : FileTable) (path : String) : Option FileStatus :=
  (t.get? path).map (·.status)

/-- Register an event for a path, and tell its generation. -/
def begin (t : FileTable) (path : String) : Nat × FileTable :=
  let e := (t.get? path).getD {}
  let generation := e.generation + 1
  (generation, t.put path { e with generation })

/-- Whether there was no later event for the path. -/
def isCurrent (t : FileTable) (path : String) (generation : Nat) : Bool :=
  (t.get? path).any (·.generation == generation)

/-- The entry of a path, if a generation is its latest. -/
def current? (t : FileTable) (path : String) (generation : Nat) : Option FileEntry :=
  (t.get? path).filter (·.generation == generation)

/-- Enter a stage, and tell whether the generation is the latest. -/
def enter (t : FileTable) (path : String) (generation : Nat) (stage : Stage) : Bool × FileTable :=
  match t.current? path generation with
  | none => (false, t)
  | some e =>
    let status : FileStatus := if e.committed then .reindexing stage else .starting stage
    (true, t.put path { e with status })

/-- Note that the content of a generation is served. -/
def markIndexed (t : FileTable) (path : String) (generation : Nat) : FileTable :=
  match t.current? path generation with
  | none => t
  | some e => t.put path { e with status := .indexed, committed := true, retry := none }

/-- Number of times in a row that content has now failed. -/
def attemptsOf (e : FileEntry) (contentHash : String) : Nat :=
  match e.retry with
  | some pending => if pending.contentHash = contentHash then pending.attempts + 1 else 1
  | none => 1

/-- Note that a generation failed. Nothing is noted for an older generation, nor when no time for
    the next attempt can be given. -/
def fail (t : FileTable) (backoff : Backoff) (now : Instant) (generation : Nat)
    (kind : FailureKind) (error : String) (change : FileChange) (contentHash : String) :
    Except BeyondCalendar (Option Failure × FileTable) :=
  match t.current? change.path generation with
  | none => .ok (none, t)
  | some e => do
    let attempts := attemptsOf e contentHash
    let nextRetryAt ← if kind.isRetryable then backoff.nextRetryAt now attempts else .ok none
    let failure : Failure := { kind, attempts, lastError := error, nextRetryAt }
    let retry : PendingRetry := { change, contentHash, attempts }
    pure (some failure, t.put change.path { e with status := .failed failure, retry := some retry })

/-- Note that a path is served no more. Its generation stays. -/
def markRemoved (t : FileTable) (path : String) : FileTable :=
  match t.get? path with
  | none => t
  | some e => t.put path { e with status := .unindexed, committed := false, retry := none }

/-- Go back to where the path stood before a stage was entered. -/
def abandon (t : FileTable) (path : String) (generation : Nat) : FileTable :=
  match t.current? path generation with
  | none => t
  | some e =>
    if e.status.inProgress then
      t.put path { e with status := if e.committed then .indexed else .unindexed }
    else t

/-- The content of an entry to try again at a time, if there is some. -/
def dueOf (now : Instant) (e : FileEntry) : Option FileChange :=
  match e.status, e.retry with
  | .failed failure, some pending =>
    if failure.nextRetryAt.any (·.le now) then some pending.change else none
  | _, _ => none

/-- All content to try again at a time, in the order of the paths. -/
def dueRetries (t : FileTable) (now : Instant) : List FileChange :=
  (t.entries.filterMap fun (_, e) => dueOf now e).mergeSort fun a b => !(b.path < a.path)

/-- Number of paths whose status satisfies `p`. -/
def count (t : FileTable) (p : FileStatus → Bool) : Nat :=
  t.entries.countP fun (_, e) => p e.status

/-- Forget the paths that are not indexed, not failed and not worked on, and tell how many there
    were. -/
def prune (t : FileTable) : Nat × FileTable :=
  let kept := t.entries.filter fun (_, e) => e.status != .unindexed
  (t.entries.length - kept.length, ⟨kept⟩)

end FileTable

end CodeSearch
