import CodeSearch.Symbol.Basic

/-! # Differences between two versions of a file

Symbols of the two versions are matched when they have the same kind and qualified name. Where
several do, those are paired first that overlap in the most lines, and what is left in document
order. A matched symbol takes over the id of the old one.
-/

namespace CodeSearch

/-- How the symbols of a new version stand to those of the old one. -/
structure SymbolDiff where
  /-- New symbols without a counterpart. -/
  added : List Symbol := []
  /-- Matched symbols whose text or signature changed. -/
  modified : List Symbol := []
  /-- Matched symbols with the same text and signature. -/
  unchanged : List Symbol := []
  /-- Old symbols without a counterpart. -/
  removed : List Symbol := []
  deriving Repr, DecidableEq, Inhabited

namespace SymbolDiff

def isNoop (d : SymbolDiff) : Bool :=
  d.added.isEmpty && d.modified.isEmpty && d.removed.isEmpty

/-- The symbols whose text is new. -/
def changed (d : SymbolDiff) : List Symbol :=
  d.added ++ d.modified

/-- Order of position, and of kind at one position. -/
def positionLe (a b : Symbol) : Bool :=
  if a.span.startByte ≠ b.span.startByte then a.span.startByte < b.span.startByte
  else if a.span.endByte ≠ b.span.endByte then a.span.endByte < b.span.endByte
  else a.kind.rank ≤ b.kind.rank

/-- The symbols of the new version by position. -/
def current (d : SymbolDiff) : List Symbol :=
  (d.added ++ d.modified ++ d.unchanged).mergeSort positionLe

/-- What has to agree for two symbols to be matched. -/
abbrev Identity := SymbolKind × String

def identity (s : Symbol) : Identity :=
  (s.kind, s.qualifiedName)

/-- A new and an old symbol of one identity, by number, and the lines in which they overlap. -/
structure Candidate where
  overlap : Nat
  new : Nat
  old : Nat
  deriving Repr, DecidableEq

/-- More overlap first, then document order. -/
def Candidate.le (a b : Candidate) : Bool :=
  if a.overlap ≠ b.overlap then b.overlap < a.overlap
  else if a.new ≠ b.new then a.new < b.new
  else a.old ≤ b.old

/-- Take the candidates in turn, and keep those whose symbols are both still free. -/
def choose (candidates : List Candidate) : List (Nat × Nat) :=
  candidates.foldl (fun pairs c =>
    if pairs.any fun p => p.1 == c.new || p.2 == c.old then pairs
    else pairs ++ [(c.new, c.old)]) []

/-- Pair the symbols of one identity: first by overlap, then what is left in order. -/
def pairs (old new : List (Symbol × Nat)) : List (Nat × Nat) :=
  let candidates := new.flatMap fun (s, n) => old.filterMap fun (t, o) =>
    let overlap := s.span.lineOverlap t.span
    if 0 < overlap then some ⟨overlap, n, o⟩ else none
  let chosen := choose (candidates.mergeSort Candidate.le)
  let restNew := (new.map (·.2)).filter fun n => !chosen.any (·.1 == n)
  let restOld := (old.map (·.2)).filter fun o => !chosen.any (·.2 == o)
  chosen ++ restNew.zip restOld

/-- All pairs of a new and an old symbol that are matched, by number. -/
def matching (old new : List Symbol) : List (Nat × Nat) :=
  let identities := (new.map identity).eraseDups
  let of (symbols : List Symbol) (i : Identity) : List (Symbol × Nat) :=
    symbols.zipIdx.filter fun (s, _) => identity s == i
  identities.flatMap fun i => pairs (of old i) (of new i)

/-- An id for a symbol that is not among those in use: its own, or else one derived with the
    ordinals from 1000 on. Among `tries` ordinals a free one is found when more ids than are in
    use differ. -/
def freshIdFrom (inUse : List SymbolId) (s : Symbol) : (tries ordinal : Nat) → SymbolId → SymbolId
  | 0, _, id => id
  | tries + 1, ordinal, id =>
    if inUse.contains id then
      freshIdFrom inUse s tries (ordinal + 1)
        (SymbolId.derive s.unit.path s.kind s.qualifiedName (1000 + ordinal))
    else id

def freshId (inUse : List SymbolId) (s : Symbol) : SymbolId :=
  freshIdFrom inUse s (inUse.length + 2) 0 s.id

/-- The ids that new symbols come with, and those that they get. -/
abbrev Renaming := Keyed SymbolId SymbolId

/-- The old symbol that the `n`-th new one is matched with. -/
def previous? (old : List Symbol) (matched : List (Nat × Nat)) (n : Nat) : Option Symbol :=
  (matched.find? (·.1 == n)).bind fun p => old[p.2]?

def inherit (old : List Symbol) (matched : List (Nat × Nat)) (newIds : Renaming)
    (s : Symbol × Nat) : Renaming :=
  match previous? old matched s.2 with
  | some previous => Keyed.put newIds s.1.id previous.id
  | none => newIds

def inheritedIds (old new : List Symbol) (matched : List (Nat × Nat)) : Renaming :=
  new.zipIdx.foldl (inherit old matched) []

/-- Let a new symbol that is not matched have an id that is not in use, and use it. -/
def giveFresh (matched : List (Nat × Nat)) (given : List SymbolId × Renaming) (s : Symbol × Nat) :
    List SymbolId × Renaming :=
  if matched.any (·.1 == s.2) then given
  else
    let id := freshId given.1 s.1
    (id :: given.1, Keyed.put given.2 s.1.id id)

/-- Matched symbols get the old ids, and the others ids that are in use nowhere. -/
def newIds (old new : List Symbol) (matched : List (Nat × Nat)) : Renaming :=
  let inherited := inheritedIds old new matched
  let start := (old.map (·.id) ++ Keyed.values inherited, inherited)
  (new.zipIdx.foldl (giveFresh matched) start).2

def Renaming.apply (r : Renaming) (id : SymbolId) : SymbolId :=
  (Keyed.get? r id).getD id

/-- Rename the ids of a symbol, of its parent and of what its relations point at. -/
def Renaming.applyTo (r : Renaming) (s : Symbol) : Symbol :=
  s.rename r.apply

/-- Whether a matched symbol kept its text and signature. -/
def isUnchanged (previous s : Symbol) : Bool :=
  previous.bodyHash == s.bodyHash && previous.signature == s.signature

/-- The symbol, if it is matched with no old one. -/
def added? : Symbol × Option Symbol → Option Symbol
  | (s, none) => some s
  | (_, some _) => none

/-- The symbol, if it is matched and changed. -/
def modified? : Symbol × Option Symbol → Option Symbol
  | (s, some previous) => if isUnchanged previous s then none else some s
  | (_, none) => none

/-- The symbol, if it is matched and did not change. -/
def unchanged? : Symbol × Option Symbol → Option Symbol
  | (s, some previous) => if isUnchanged previous s then some s else none
  | (_, none) => none

/-- Compare two versions of a file. -/
def between (old new : List Symbol) : SymbolDiff :=
  let matched := matching old new
  let names := newIds old new matched
  let renamed := new.zipIdx.map fun (s, n) => (names.applyTo s, previous? old matched n)
  { added := renamed.filterMap added?
    modified := renamed.filterMap modified?
    unchanged := renamed.filterMap unchanged?
    removed := (old.zipIdx.filter fun (_, o) => !matched.any (·.2 == o)).map (·.1) }

end SymbolDiff

end CodeSearch
