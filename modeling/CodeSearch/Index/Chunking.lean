import CodeSearch.Symbol.Basic

/-! # Which symbols are embedded

A bounded number of symbols of each file is embedded, chosen by kind and position.
-/

namespace CodeSearch

/-- Which symbols of a file are embedded, and how much of their text. -/
structure Chunking where
  /-- Greatest number of embedded symbols of a file. -/
  maxEmbeddings : Nat := 256
  /-- Greatest number of characters of a symbol's text. -/
  maxTextChars : Nat := 1500
  /-- Kinds that are embedded, the most wanted first. -/
  kinds : List SymbolKind := [.type, .function, .var]
  deriving Repr, DecidableEq, Inhabited

namespace Chunking

/-- A symbol that may be embedded, with the place of its kind and its own place. -/
structure Candidate where
  priority : Nat
  place : Nat
  symbol : Symbol
  deriving Repr, Inhabited

/-- More wanted kinds first, then document order. -/
def Candidate.wantedLe (a b : Candidate) : Bool :=
  if a.priority = b.priority then a.place ≤ b.place else a.priority < b.priority

/-- Document order. -/
def Candidate.placeLe (a b : Candidate) : Bool :=
  a.place ≤ b.place

/-- The symbols whose kind is embedded. -/
def candidates (c : Chunking) (symbols : List Symbol) : List Candidate :=
  symbols.zipIdx.filterMap fun (s, place) =>
    (c.kinds.findIdx? (· == s.kind)).map fun priority => ⟨priority, place, s⟩

/-- The symbols to embed in document order. When there are too many, those of the most wanted
    kinds stay. -/
def select (c : Chunking) (symbols : List Symbol) : List Symbol :=
  let all := c.candidates symbols
  let chosen :=
    if all.length ≤ c.maxEmbeddings then all
    else ((all.mergeSort Candidate.wantedLe).take c.maxEmbeddings).mergeSort Candidate.placeLe
  chosen.map (·.symbol)

def text (c : Chunking) (s : Symbol) : String :=
  let kind := s.kind.name
  let snippet := Text.takeChars c.maxTextChars s.snippet
  s!"{kind} {s.qualifiedName}\n{s.signature}\n{snippet}"

/-- Accept a policy by which something is embedded. -/
def validate (c : Chunking) : Except String Unit :=
  if c.maxEmbeddings = 0 then .error "chunking.max_embeddings_per_unit must be > 0"
  else if c.kinds.isEmpty then .error "chunking.embed_kinds must not be empty"
  else .ok ()

end Chunking

end CodeSearch
