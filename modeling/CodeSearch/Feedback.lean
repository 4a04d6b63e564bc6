import CodeSearch.Keyed
import CodeSearch.Score
import CodeSearch.Symbol.Basic

/-! # Feedback

What users did with results is counted for each symbol, and turned into a rate of acceptance that
is drawn towards one half while there are few counts.
-/

namespace CodeSearch

/-- What a user did with a result. -/
inductive Signal where
  | accept
  | reject
  /-- The result was opened, which counts half. -/
  | click
  deriving Repr, DecidableEq, Inhabited

namespace Signal

def name : Signal → String
  | accept => "accept"
  | reject => "reject"
  | click => "click"

/-- The signal that a user names. -/
def ofText? (s : String) : Option Signal :=
  match Text.lower (Text.trim s) with
  | "accept" | "accepted" | "up" => some accept
  | "reject" | "rejected" | "down" => some reject
  | "click" | "clicked" | "open" => some click
  | _ => none

/-- What is said of a text that names no signal. -/
def unknownMessage (s : String) : String :=
  let lowered := Text.lower (Text.trim s)
  s!"unknown feedback signal '{lowered}'"

end Signal

structure SignalCounts where
  accepts : Nat := 0
  rejects : Nat := 0
  clicks : Nat := 0
  deriving Repr, DecidableEq, Inhabited

namespace SignalCounts

def add (c : SignalCounts) : Signal → SignalCounts
  | .accept => { c with accepts := c.accepts + 1 }
  | .reject => { c with rejects := c.rejects + 1 }
  | .click => { c with clicks := c.clicks + 1 }

/-- Rate of acceptance, one half without signals. -/
def weight (c : SignalCounts) : Score :=
  let positive := Float32.ofNat c.accepts + 0.5 * Float32.ofNat c.clicks
  (positive + 1) / (positive + Float32.ofNat c.rejects + 2)

end SignalCounts

/-- Counts of signals for each symbol that got some. -/
structure FeedbackStore where
  counts : Keyed SymbolId SignalCounts := []
  deriving Repr, DecidableEq, Inhabited

namespace FeedbackStore

def countsOf (s : FeedbackStore) (id : SymbolId) : SignalCounts :=
  (Keyed.get? s.counts id).getD {}

def record (s : FeedbackStore) (id : SymbolId) (signal : Signal) : FeedbackStore :=
  ⟨Keyed.put s.counts id ((s.countsOf id).add signal)⟩

def weight (s : FeedbackStore) (id : SymbolId) : Score :=
  (s.countsOf id).weight

/-- Keep the counts of some symbols, and tell for how many others they were dropped. -/
def retain (s : FeedbackStore) (keep : SymbolId → Bool) : Nat × FeedbackStore :=
  let kept := s.counts.filter fun (id, _) => keep id
  (s.counts.length - kept.length, ⟨kept⟩)

def size (s : FeedbackStore) : Nat :=
  s.counts.length

end FeedbackStore

end CodeSearch
