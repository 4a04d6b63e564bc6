import CodeSearch.Filter.Conjunction
import CodeSearch.Index.Basic

/-! # Answering questions

The candidates of a question are the symbols with similar vectors, those whose name is a key term,
and, when patterns are asked for, all types and functions. Those that pass the filters are ranked.
-/

namespace CodeSearch

/-- A question with what is asked for beside it. -/
structure QueryRequest where
  text : String := ""
  filters : List Filter := []
  /-- Number of results, if it is given. -/
  topK : Option Nat := none
  /-- Whether matches of patterns are reported too. -/
  includePatterns : Bool := false
  deriving Repr, BEq, Inhabited

namespace CodeIndex

/-- Least number of vectors that are looked at. -/
def minVectorCandidates : Nat := 32

/-- Largest number of candidates that can be asked for. -/
def maxVectorCandidates : Nat := Nat.pow 2 64 - 1

def embedQuery (w : CodeIndex) (text : String) : Except IndexError Vector :=
  match w.embedder.embedChecked "query embedding timed out" [text] with
  | .error detail => .error (.embedding "<query>" detail)
  | .ok (vector :: _) => .ok vector
  | .ok [] => .error (.embedding "<query>" "provider returned no vector")

/-- Candidates with their similarities, in the order of their ids. -/
abbrev Candidates := List (SymbolId × Score)

/-- Add a candidate that is not there yet. -/
def addCandidate (cs : Candidates) (id : SymbolId) (similarity : Unit → Score) : Candidates :=
  if Keyed.has cs id then cs else Keyed.put cs id (similarity ())

/-- The symbols whose vectors are similar. -/
def vectorCandidates (w : CodeIndex) (filters : FilterSet) (query : Vector) (topK : Nat) :
    Except IndexError Candidates := do
  let fetch := max (min (topK * w.config.query.candidateMultiplier) maxVectorCandidates)
    minVectorCandidates
  let restriction : Restriction :=
    if filters.hasMetadataFilters then some filters.matchesMetadata else none
  let found ← (w.state.vectors.filteredSearch query fetch restriction).mapError .vector
  pure (found.foldl (fun cs c => Keyed.put cs c.id c.similarity) [])

def addSymbols (w : CodeIndex) (filters : FilterSet) (query : Vector) (cs : Candidates)
    (symbols : List Symbol) : Candidates :=
  symbols.foldl (fun cs s =>
    if filters.matchesMetadata s.metadata then
      addCandidate cs s.id fun _ => w.state.similarity query s
    else cs) cs

/-- The symbols whose name is one of the terms. -/
def namedBy (w : CodeIndex) (terms : List String) : List Symbol :=
  terms.flatMap fun term => (w.state.lookupName term).filterMap w.state.symbol?

/-- The symbols in which patterns can be found, when patterns are asked for. -/
def patternBearers (w : CodeIndex) (filters : FilterSet) : List Symbol :=
  if filters.hasPatternFilters then
    w.state.allSymbols.filter fun s => s.kind == .type || s.kind == .function
  else []

def passesPatterns (w : CodeIndex) (filters : FilterSet) (s : Symbol) : Bool :=
  !filters.hasPatternFilters || filters.matchesPatterns (w.state.patternsFor w.detector s)

/-- The candidates that are of the versions held and pass the filters on patterns. -/
def entries (w : CodeIndex) (filters : FilterSet) (cs : Candidates) : List Ranking.Entry :=
  cs.filterMap fun (id, similarity) => do
    let s ← w.state.symbol? id
    if w.state.isCurrent s && w.passesPatterns filters s then some (s, similarity) else none

def withPatterns (w : CodeIndex) (r : RankedResult) : RankedResult :=
  { r with patterns := w.state.patternsFor w.detector r.symbol }

/-- Rank what was found for a question. -/
def answer (w : CodeIndex) (request : QueryRequest) (intent : QueryIntent) (filters : FilterSet)
    (query : Vector) (topK : Nat) : Except IndexError (List RankedResult) := do
  let similar ← w.vectorCandidates filters query topK
  let named := w.addSymbols filters query similar (w.namedBy intent.terms)
  let all := w.addSymbols filters query named (w.patternBearers filters)
  let results := Ranking.rank w.config.ranking (w.entries filters all) intent w.state.feedback
    w.now topK
  pure (if request.includePatterns then results.map w.withPatterns else results)

/-- Answer a question. Its text is sent to the embedder only when nothing else is wrong with it. -/
def query (w : CodeIndex) (request : QueryRequest) :
    Except IndexError (List RankedResult) × CodeIndex :=
  let prepared : Except IndexError (QueryIntent × FilterSet) := do
    discard ((FilterSet.ofList request.filters).mapError .filter)
    let hints := ContextHints.ofRecent w.state.recentPaths w.state.recentSymbols
    let intent ← (Query.classify request.text hints).mapError .query
    let filters ← (FilterSet.withInferred request.filters intent.filters).mapError .filter
    pure (intent, filters)
  match prepared with
  | .error cause => (.error cause, w)
  | .ok (intent, filters) =>
    let topK := request.topK.getD w.config.query.defaultTopK
    if topK = 0 then (.ok [], w)
    else
      let result := do
        let vector ← w.embedQuery intent.expanded
        w.answer request intent filters vector topK
      (result, { w with textsSent := w.textsSent + 1 })

end CodeIndex

end CodeSearch
