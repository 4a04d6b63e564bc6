import CodeSearch.Feedback
import CodeSearch.Query

/-! # Ranking

A candidate's score is the weighted sum of five signals: similarity, how well its name fits the
question, how recent it is, feedback, and whether it is near to what was touched last.
-/

namespace CodeSearch

open Time (Instant)

/-- Weights of the signals, and the age at which recency counts half. -/
structure RankingConfig where
  similarity : Score := 0.5
  structural : Score := 0.25
  recency : Score := 0.1
  feedback : Score := 0.1
  context : Score := 0.05
  halfLifeDays : Float := 30
  deriving Repr, BEq, Inhabited

/-- Why a ranking configuration was refused. -/
inductive RankingConfigError where
  | invalidWeight (name : String) (value : Score)
  | allZero
  | invalidHalfLife (days : Float)
  deriving Repr

namespace RankingConfigError

def kind : RankingConfigError → String
  | invalidWeight _ _ => "invalid_weight"
  | allZero => "all_zero"
  | invalidHalfLife _ => "invalid_half_life"

def message : RankingConfigError → String
  | invalidWeight name value =>
    let number := (Decimal.Parts.ofFloat32 value).plain
    s!"ranking weight {name} must be finite and >= 0, got {number}"
  | allZero => "at least one ranking weight must be positive"
  | invalidHalfLife days =>
    let number := (Decimal.Parts.ofFloat days).plain
    s!"half_life_days must be > 0, got {number}"

end RankingConfigError

namespace RankingConfig

/-- The weights under their names. -/
def weights (c : RankingConfig) : List (String × Score) :=
  [("w_similarity", c.similarity), ("w_structural", c.structural), ("w_recency", c.recency),
   ("w_feedback", c.feedback), ("w_context", c.context)]

/-- Accept weights that are not negative and not all zero, and a positive half-life. -/
def validate (c : RankingConfig) : Except RankingConfigError Unit :=
  match c.weights.find? fun (_, w) => !w.isFinite || w < 0 with
  | some (name, value) => .error (.invalidWeight name value)
  | none =>
    if c.weights.all fun (_, w) => w == 0 then .error .allZero
    else if c.halfLifeDays.isFinite && c.halfLifeDays > 0 then .ok ()
    else .error (.invalidHalfLife c.halfLifeDays)

end RankingConfig

/-- The signals of a candidate, each between 0 and 1. -/
structure ScoreBreakdown where
  similarity : Score
  structural : Score
  recency : Score
  feedback : Score
  context : Score
  deriving Repr, BEq, Inhabited

/-- The weighted sum. -/
def ScoreBreakdown.composite (b : ScoreBreakdown) (c : RankingConfig) : Score :=
  b.similarity * c.similarity + b.structural * c.structural + b.recency * c.recency +
    b.feedback * c.feedback + b.context * c.context

structure RankedResult where
  /-- Place in the results, of which the first is 1. -/
  rank : Nat
  symbol : Symbol
  score : Score
  breakdown : ScoreBreakdown
  /-- Matches of patterns, if they were asked for. -/
  patterns : List PatternMatch := []
  deriving Repr, Inhabited

namespace Ranking

/-- A symbol with its similarity to the question; one found by name alone has 0. -/
abbrev Entry := Symbol × Score

/-- How well a symbol's name fits: completely, in part, or not; and half as well when symbols of
    its kind are not asked for. -/
def structuralRelevance (s : Symbol) (terms : List String) (category : QueryCategory) : Score :=
  let name := Text.lower s.name
  let qualifiedName := Text.lower s.qualifiedName
  let exact := terms.any fun t => t == name || t == qualifiedName
  let partly := terms.any fun t =>
    2 ≤ t.utf8ByteSize && (Text.contains name t || Text.contains qualifiedName t ||
      (3 ≤ name.utf8ByteSize && Text.contains t name))
  let base : Score := if exact then 1 else if partly then 0.5 else 0
  let preferred : Bool :=
    match category with
    | .findUsage => s.kind == .call || s.kind == .importing
    | .findDefinition => s.kind.isDefinition
    | _ => true
  if preferred then base else base * 0.5

/-- Recency, which halves with every half-life of age; what lies in the future is new. -/
def recencyWeight (modifiedAt now : Instant) (halfLifeDays : Float) : Score :=
  let days := Float.ofNat (now.millisSince modifiedAt) / 86400000
  let ln2 : Float := 0.693147180559945309417232121458
  (-ln2 * days / halfLifeDays).exp.toFloat32

/-- The signals of a candidate. -/
def breakdown (c : RankingConfig) (intent : QueryIntent) (feedback : FeedbackStore)
    (now : Instant) (e : Entry) : ScoreBreakdown :=
  let (s, similarity) := e
  let near := intent.hints.paths.contains s.unit.path || intent.hints.symbols.contains s.name
  { similarity := Score.clamp similarity 0 1
    structural := structuralRelevance s intent.terms intent.category
    recency := recencyWeight s.modifiedAt now c.halfLifeDays
    feedback := feedback.weight s.id
    context := if near then 1 else 0 }

/-- A candidate with its score, not ranked yet. -/
def scored (c : RankingConfig) (intent : QueryIntent) (feedback : FeedbackStore) (now : Instant)
    (e : Entry) : RankedResult :=
  let signals := breakdown c intent feedback now e
  { rank := 0, symbol := e.1, score := signals.composite c, breakdown := signals }

/-- Highest score first, and equal scores by id. -/
def le (a b : RankedResult) : Bool :=
  Score.bestFirst (a.symbol.id, a.score) (b.symbol.id, b.score)

/-- The best `topK` candidates with their ranks. -/
def rank (c : RankingConfig) (entries : List Entry) (intent : QueryIntent)
    (feedback : FeedbackStore) (now : Instant) (topK : Nat) : List RankedResult :=
  let sorted := (entries.map (scored c intent feedback now)).mergeSort le
  (sorted.take topK).zipIdx.map fun (r, i) => { r with rank := i + 1 }

end Ranking

end CodeSearch
