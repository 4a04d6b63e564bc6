import CodeSearch.Index.Pass

/-! # Operations on files

Single changes, batches of changes, attempts at what failed before, and two passes that meet.
-/

namespace CodeSearch

namespace CodeIndex

/-- Run a pass from its begin to its end. -/
def process (w : CodeIndex) (request : Request) : Except PassError Ack × CodeIndex :=
  let (w, p) := Pass.start w request
  let (w, p) := p.run w
  (p.result, w)

def indexChange (w : CodeIndex) (change : FileChange) : Except PassError Ack × CodeIndex :=
  w.process (.index change)

def removeFile (w : CodeIndex) (path : String) : Except PassError Ack × CodeIndex :=
  w.process (.remove path)

/-- What a batch reports of a pass: one that broke down is reported as an error. -/
def reported : Except PassError Ack → Except IndexError Ack
  | .ok ack => .ok ack
  | .error (.index cause) => .error cause
  | .error .beyondCalendar => .error (.internal "indexing task did not complete")

def indexBatch (w : CodeIndex) : List FileChange → List (Except IndexError Ack) × CodeIndex
  | [] => ([], w)
  | change :: rest =>
    let (result, w) := w.indexChange change
    let (results, w) := w.indexBatch rest
    (reported result :: results, w)

def retryFailed (w : CodeIndex) : List (Except IndexError Ack) × CodeIndex :=
  w.indexBatch (w.files.dueRetries w.now)

/-- What is seen of two passes of which the second begins while the first one embeds. -/
structure Race where
  /-- Status of the first path when the second pass begins. -/
  during : Option FileStatus
  /-- Number of files that are worked on then. -/
  inProgress : Nat
  first : Except PassError Ack
  second : Except PassError Ack

/-- Run a pass until it embeds, begin another one, and run both to their ends. -/
def race (w : CodeIndex) (first second : Request) : Race × CodeIndex :=
  let (w, p) := Pass.start w first
  let (w, p) := p.runWhile (!·.isEmbedding) w
  let during := w.files.status first.path
  let inProgress := w.stats.filesInProgress
  let (w, q) := Pass.start w second
  let (w, p) := p.run w
  let (w, q) := q.run w
  (⟨during, inProgress, p.result, q.result⟩, w)

end CodeIndex

end CodeSearch
