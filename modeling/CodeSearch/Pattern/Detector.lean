import CodeSearch.Pattern.Catalog

/-! # Detecting patterns

A pattern is detected in a subject when its confidence reaches a threshold.
-/

namespace CodeSearch

/-- The threshold from which on matches are reported. -/
structure Detector where
  threshold : Score
  deriving Repr, Inhabited

namespace Detector

/-- A detector whose threshold is brought between 0 and 1. -/
def ofThreshold (threshold : Score) : Detector :=
  ⟨Score.clamp threshold 0 1⟩

/-- Threshold unless told otherwise. -/
def defaultThreshold : Score := 0.5

/-- The confidence of every pattern that applies to a subject. -/
def scores (s : Subject) : List (Pattern × Score) :=
  Pattern.all.filterMap fun p => (p.score? s).map (p, ·)

/-- More confidence first, then the order of the catalog. -/
def matchLe (a b : PatternMatch) : Bool :=
  if a.confidence.rank = b.confidence.rank then a.pattern.rank ≤ b.pattern.rank
  else b.confidence.rank < a.confidence.rank

def participants (s : Subject) : List SymbolId :=
  s.symbol.id :: (s.methods.map (·.id)).mergeSort fun a b => !(b < a)

/-- The matches of a subject, best first. -/
def detect (d : Detector) (s : Subject) : List PatternMatch :=
  let reached := (scores s).filter fun (_, score) => d.threshold ≤ score
  let found := reached.map fun (pattern, confidence) =>
    { pattern, symbols := participants s, confidence }
  found.mergeSort matchLe

/-- The subjects of a file that have matches. -/
def detectAll (d : Detector) (symbols : List Symbol) : List (SymbolId × List PatternMatch) :=
  ((Subject.all symbols).map fun s => (s.symbol.id, d.detect s)).filter (!·.2.isEmpty)

end Detector

end CodeSearch
