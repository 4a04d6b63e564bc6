import CodeSearch.Proofs.Symbol.Extraction
import CodeSearch.Proofs.Symbol.Pairing
import CodeSearch.Proofs.Symbol.Parts

/-! # Comparing symbols with their stored form

The symbols of a file are stored by position, while an extraction gives them as they are met in the
tree. Comparing the same symbols again therefore changes nothing exactly as long as symbols of one
identity that cover the same lines are met in the order of their positions. A call chain on one line
breaks this: the outer call is met first, but the inner one ends first.
-/

namespace CodeSearch.SymbolDiff

open Syntax (Concrete Parsed)

/-! ## Order of position -/

theorem positionLe_iff {a b : Symbol} : positionLe a b = true ↔
    a.span.startByte < b.span.startByte ∨ a.span.startByte = b.span.startByte ∧
      (a.span.endByte < b.span.endByte ∨ a.span.endByte = b.span.endByte ∧
        a.kind.rank ≤ b.kind.rank) := by
  unfold positionLe
  split
  · rw [decide_eq_true_iff]
    omega
  · split
    · rw [decide_eq_true_iff]
      omega
    · rw [decide_eq_true_iff]
      omega

theorem positionLe_total (a b : Symbol) : (positionLe a b || positionLe b a) = true := by
  rw [Bool.or_eq_true, positionLe_iff, positionLe_iff]
  omega

theorem positionLe_trans (a b c : Symbol) (first : positionLe a b = true)
    (second : positionLe b c = true) : positionLe a c = true := by
  rw [positionLe_iff] at *
  omega

/-! ## The first version of a file -/

section

variable {symbols : List Symbol}

theorem matching_nil (new : List Symbol) : matching [] new = [] := by
  rw [matching_eq, List.flatMap_eq_nil_iff]
  intro i _
  have none : queue (ofIdentity [] i) (ofIdentity new i) = [] := by
    refine List.eq_nil_iff_forall_not_mem.mpr fun c hc => ?_
    obtain ⟨s, t, -, ht, -⟩ := mem_candidates.mp (mem_queue.mp hc)
    cases ht
  rw [pairs_eq, none]
  exact List.zip_nil_right

theorem freshId_own {inUse : List SymbolId} {s : Symbol} (free : s.id ∉ inUse) :
    freshId inUse s = s.id := by
  have unused : inUse.contains s.id = false := by
    rw [← Bool.not_eq_true, List.contains_iff_mem]
    exact free
  rw [freshId, freshIdFrom, unused]
  rfl

/-- Symbols whose ids are in use nowhere keep them. -/
theorem given_own {symbols : List (Symbol × Nat)} {given : List SymbolId × Renaming}
    (distinct : (symbols.map (·.1.id)).Nodup) (free : ∀ s ∈ symbols, s.1.id ∉ given.1)
    (own : ∀ id, given.2.apply id = id) (id : SymbolId) :
    (symbols.foldl (giveFresh []) given).2.apply id = id := by
  induction symbols generalizing given with
  | nil => exact own id
  | cons first rest ih =>
      obtain ⟨absent, distinct⟩ := List.nodup_cons.mp distinct
      obtain ⟨freeFirst, free⟩ := List.forall_mem_cons.mp free
      rw [List.foldl_cons, giveFresh_unmatched rfl, freshId_own freeFirst]
      refine ih distinct (fun s hs used => ?_) fun id => ?_
      · rcases List.mem_cons.mp used with same | used
        · exact absent (List.mem_map.mpr ⟨s, hs, same⟩)
        · exact free s hs used
      · rw [Renaming.apply, Keyed.get?_put]
        split
        · rename_i here
          rw [Option.getD_some, here]
        · exact own id

theorem applyTo_own {names : Renaming} (own : ∀ id, names.apply id = id) (s : Symbol) :
    names.applyTo s = s := by
  have same : names.apply = id := funext own
  have relation (r : Relation) : r.rename id = r := by
    obtain ⟨kind, target⟩ := r
    cases target with
    | resolved i => rfl
    | unresolved name => rfl
  rw [Renaming.applyTo, same, Symbol.rename, Option.map_id, List.map_congr_left fun r _ => relation r,
    List.map_id']
  rfl

/-- What is stored of the first version of a file: its symbols by position. -/
def stored (symbols : List Symbol) : List Symbol :=
  (between [] symbols).current

theorem stored_eq (distinct : (symbols.map (·.id)).Nodup) :
    stored symbols = symbols.mergeSort positionLe := by
  have own : ∀ id, (names [] symbols).apply id = id := by
    have none : inheritedIds [] symbols [] = [] := by
      refine List.foldlRecOn (motive := fun names : Renaming => names = []) _ _ rfl ?_
      rintro names rfl s -
      rfl
    intro id
    rw [names, newIds, matching_nil, none]
    exact given_own (by rwa [numbered_ids]) (fun s _ used => by cases used) (fun _ => rfl) id
  have listed : renamed [] symbols = symbols.map (·, none) := by
    refine List.ext_getElem? fun n => ?_
    simp only [renamed, matching_nil, List.getElem?_map, List.getElem?_zipIdx, Option.map_map]
    cases symbols[n]? with
    | none => rfl
    | some s => simp [applyTo_own own, previous?]
  have added : (between [] symbols).added = symbols := by
    change (renamed [] symbols).filterMap added? = symbols
    rw [listed, List.filterMap_map]
    exact List.filterMap_some
  have modified : (between [] symbols).modified = [] := by
    change (renamed [] symbols).filterMap modified? = []
    rw [listed, List.filterMap_map]
    exact List.filterMap_eq_nil_iff.mpr fun _ _ => rfl
  have unchanged : (between [] symbols).unchanged = [] := by
    change (renamed [] symbols).filterMap unchanged? = []
    rw [listed, List.filterMap_map]
    exact List.filterMap_eq_nil_iff.mpr fun _ _ => rfl
  rw [stored, current, added, modified, unchanged, List.append_nil, List.append_nil]

end

/-! ## The same symbols in another order -/

section

variable {old new : List Symbol}

theorem renumbered (perm : old.Perm new) (distinct : new.Nodup) (i : Identity) :
    Renumbered (ofIdentity old i) (ofIdentity new i) := by
  constructor
  case same =>
    rw [numbered_symbols, numbered_symbols]
    exact perm.filter _
  case distinct =>
    rw [numbered_symbols]
    exact distinct.filter _
  case oldUp => exact numbered_up old i
  case newUp => exact numbered_up new i

theorem mem_matching {s : Symbol} {n o : Nat} (hn : new[n]? = some s) :
    (n, o) ∈ matching old new ↔
      (n, o) ∈ pairs (ofIdentity old (identity s)) (ofIdentity new (identity s)) := by
  rw [matching_eq, List.mem_flatMap]
  constructor
  · rintro ⟨i, -, inside⟩
    obtain ⟨t, ht, identity⟩ := mem_ofIdentity (pairs_known inside).1
    rw [hn] at ht
    cases ht
    exact identity ▸ inside
  · intro inside
    refine ⟨identity s, List.mem_eraseDups.mpr ?_, inside⟩
    exact List.mem_map.mpr ⟨s, List.mem_of_getElem? hn, rfl⟩

/-- Every symbol is matched with itself. -/
def SelfMatched (old new : List Symbol) : Prop :=
  ∀ s n o, new[n]? = some s → old[o]? = some s → (n, o) ∈ matching old new

/-- Symbols that a comparison could take for each other: they have one identity, and overlap with
    each other as much as with themselves. -/
def Alike (a b : Symbol) : Prop :=
  identity a = identity b ∧ a.span.Tied b.span

instance (a b : Symbol) : Decidable (Alike a b) :=
  inferInstanceAs (Decidable (_ ∧ _))

theorem selfMatched_iff (perm : old.Perm new) (distinct : new.Nodup) : SelfMatched old new ↔
    ∀ (a b : Symbol) (m n k l : Nat), new[m]? = some a → new[n]? = some b → old[k]? = some a →
      old[l]? = some b → m < n → Alike a b → k < l := by
  constructor
  · intro matched a b m n k l hm hn hk hl before alike
    have kept : TiesKept (ofIdentity old (identity a)) (ofIdentity new (identity a)) := by
      refine (renumbered perm distinct (identity a)).pairs_twins_iff.mp fun s n o hn ho => ?_
      obtain ⟨hn, same⟩ := mem_numbered.mp hn
      exact same ▸ (mem_matching hn).mp (matched s n o hn (mem_numbered.mp ho).1)
    exact kept a b m n k l (mem_numbered.mpr ⟨hm, rfl⟩) (mem_numbered.mpr ⟨hn, alike.1.symm⟩)
      (mem_numbered.mpr ⟨hk, rfl⟩) (mem_numbered.mpr ⟨hl, alike.1.symm⟩) before alike.2
  · intro kept s n o hn ho
    have ties : TiesKept (ofIdentity old (identity s)) (ofIdentity new (identity s)) := by
      intro a b m n k l hm hn hk hl before tied
      obtain ⟨hm, identityA⟩ := mem_numbered.mp hm
      obtain ⟨hn, identityB⟩ := mem_numbered.mp hn
      exact kept a b m n k l hm hn (mem_numbered.mp hk).1 (mem_numbered.mp hl).1 before
        ⟨identityA.trans identityB.symm, tied⟩
    rw [mem_matching hn]
    exact (renumbered perm distinct (identity s)).pairs_twins_iff.mpr ties s n o
      (mem_numbered.mpr ⟨hn, rfl⟩) (mem_numbered.mpr ⟨ho, rfl⟩)

theorem nodup_of_ids {symbols : List Symbol} (distinct : (symbols.map (·.id)).Nodup) :
    symbols.Nodup :=
  distinct.of_map

theorem previous?_self (perm : old.Perm new) (matched : SelfMatched old new) {s : Symbol} {n : Nat}
    (place : new[n]? = some s) : previous? old (matching old new) n = some s := by
  obtain ⟨o, ho⟩ := List.mem_iff_getElem?.mp (perm.mem_iff.mpr (List.mem_of_getElem? place))
  exact previous?_of_mem (matched s n o place ho) ho

theorem unchanged_eq_all {entries : List (Symbol × Option Symbol)}
    (noneAdded : entries.filterMap added? = []) (noneModified : entries.filterMap modified? = []) :
    entries.filterMap unchanged? = entries.map Prod.fst := by
  rw [← List.filterMap_eq_map]
  refine List.filterMap_congr ?_
  rintro ⟨s, counterpart⟩ inside
  cases counterpart with
  | none => cases List.filterMap_eq_nil_iff.mp noneAdded _ inside
  | some t =>
      have told := List.filterMap_eq_nil_iff.mp noneModified _ inside
      simp only [modified?, ite_eq_left_iff, reduceCtorEq, imp_false, not_not] at told
      rw [unchanged?, if_pos told]
      rfl

/-- Nothing is told to have changed when every symbol is matched with itself, and only then. -/
theorem between_self_iff (perm : old.Perm new) (distinct : (new.map (·.id)).Nodup) :
    between old new = { unchanged := new } ↔ SelfMatched old new := by
  have oldIds : (old.map (·.id)).Nodup := (perm.map (·.id)).nodup_iff.mpr distinct
  have parts : between old new =
      { added := (renamed old new).filterMap added?
        modified := (renamed old new).filterMap modified?
        unchanged := (renamed old new).filterMap unchanged?
        removed := (between old new).removed } := rfl
  constructor
  · intro same s n o hn ho
    rw [parts, mk.injEq] at same
    obtain ⟨noneAdded, noneModified, all, -⟩ := same
    rw [unchanged_eq_all noneAdded noneModified] at all
    have entry : (renamed old new)[n]? =
        some ((names old new).applyTo s, previous? old (matching old new) n) := by
      simp [renamed, hn]
    have own : (names old new).applyTo s = s := by
      have place : ((renamed old new).map Prod.fst)[n]? = some s := by rw [all, hn]
      rw [List.getElem?_map, entry] at place
      exact Option.some.inj place
    cases counterpart : previous? old (matching old new) n with
    | none =>
        rw [counterpart] at entry
        cases List.filterMap_eq_nil_iff.mp noneAdded _ (List.mem_of_getElem? entry)
    | some t =>
        obtain ⟨o', pair, place⟩ := previous?_some counterpart
        have sameId : t.id = s.id := by
          rw [← names_of_previous distinct hn counterpart]
          exact congrArg Symbol.id own
        exact place_unique oldIds place ho sameId ▸ pair
  · intro matched
    have own : ∀ id, (names old new).apply id = id := by
      intro id
      by_cases known : id ∈ new.map (·.id)
      · obtain ⟨s, hs, rfl⟩ := List.mem_map.mp known
        obtain ⟨n, hn⟩ := List.mem_iff_getElem?.mp hs
        exact names_of_previous distinct hn (previous?_self perm matched hn)
      · exact names_elsewhere known
    have listed : renamed old new = new.map fun s => (s, some s) := by
      refine List.ext_getElem? fun n => ?_
      simp only [renamed, List.getElem?_map, List.getElem?_zipIdx, Option.map_map]
      cases place : new[n]? with
      | none => rfl
      | some s => simp [applyTo_own own, previous?_self perm matched place]
    have unchanged (s : Symbol) : isUnchanged s s = true := by simp [isUnchanged]
    have removed : (between old new).removed = [] := by
      refine List.map_eq_nil_iff.mpr (List.filter_eq_nil_iff.mpr ?_)
      rintro ⟨t, o⟩ inside
      have ho : old[o]? = some t := List.mem_zipIdx_iff_getElem?.mp inside
      obtain ⟨n, hn⟩ := List.mem_iff_getElem?.mp (perm.mem_iff.mp (List.mem_of_getElem? ho))
      have taken : (matching old new).any (·.2 == o) = true :=
        List.any_eq_true.mpr ⟨(n, o), matched t n o hn ho, beq_iff_eq.mpr rfl⟩
      simp [taken]
    rw [parts, removed, listed, List.filterMap_map, List.filterMap_map, List.filterMap_map]
    simp [Function.comp_def, added?, modified?, unchanged?, unchanged]

/-- Calls of one identity: two on the same line, one around them, an empty one and one whose lines
    are inverted. -/
def entangled : List Symbol :=
  [callOn 5 0, callOn 5 1, { callOn 5 2 with span := ⟨4, 60, 2, 9⟩ },
    { callOn 5 3 with span := ⟨20, 20, 5, 5⟩ }, { callOn 5 4 with span := ⟨40, 8, 7, 3⟩ }]

theorem place_lt {symbols : List Symbol} (distinct : symbols.Nodup) {a b : Symbol} {k l : Nat}
    (sub : [a, b].Sublist symbols) (hk : symbols[k]? = some a) (hl : symbols[l]? = some b) :
    k < l := by
  obtain ⟨insideK, rfl⟩ := List.getElem?_eq_some_iff.mp hk
  obtain ⟨insideL, rfl⟩ := List.getElem?_eq_some_iff.mp hl
  have up : symbols.Pairwise fun x y => symbols.idxOf x < symbols.idxOf y := by
    refine List.pairwise_iff_getElem.mpr fun i j hi hj less => ?_
    rwa [distinct.idxOf_getElem, distinct.idxOf_getElem]
  have places := List.pairwise_iff_forall_sublist.mp up sub
  rwa [distinct.idxOf_getElem, distinct.idxOf_getElem] at places

theorem pair_sublist {symbols : List Symbol} {a b : Symbol} {m n : Nat}
    (hm : symbols[m]? = some a) (hn : symbols[n]? = some b) (before : m < n) :
    [a, b].Sublist symbols := by
  obtain ⟨insideM, rfl⟩ := List.getElem?_eq_some_iff.mp hm
  obtain ⟨insideN, rfl⟩ := List.getElem?_eq_some_iff.mp hn
  have subs : symbols.Pairwise fun x y => [x, y].Sublist symbols :=
    List.pairwise_iff_forall_sublist.mpr id
  exact List.pairwise_iff_getElem.mp subs m n insideM insideN before

/-- Two symbols stand in the stored order as they were met exactly when that is the order of their
    positions. -/
theorem stored_lt_iff {symbols : List Symbol} (distinct : (symbols.map (·.id)).Nodup)
    {a b : Symbol} {m n k l : Nat} (hm : symbols[m]? = some a) (hn : symbols[n]? = some b)
    (hk : (stored symbols)[k]? = some a) (hl : (stored symbols)[l]? = some b) (before : m < n) :
    k < l ↔ positionLe a b = true := by
  have sorted : (symbols.mergeSort positionLe).Pairwise fun x y => positionLe x y = true :=
    List.pairwise_mergeSort positionLe_trans positionLe_total symbols
  rw [stored_eq distinct] at hk hl
  constructor
  · intro less
    obtain ⟨insideK, rfl⟩ := List.getElem?_eq_some_iff.mp hk
    obtain ⟨insideL, rfl⟩ := List.getElem?_eq_some_iff.mp hl
    exact List.pairwise_iff_getElem.mp sorted k l insideK insideL less
  · intro inOrder
    have nodup : (symbols.mergeSort positionLe).Nodup :=
      (List.mergeSort_perm symbols positionLe).nodup_iff.mpr (nodup_of_ids distinct)
    have stays : [a, b].Sublist (symbols.mergeSort positionLe) :=
      List.pair_sublist_mergeSort positionLe_trans positionLe_total inOrder
        (pair_sublist hm hn before)
    exact place_lt nodup stays hk hl

end

/-- Symbols that could be taken for each other are met in the order of their positions. -/
def MetInOrder (symbols : List Symbol) : Prop :=
  symbols.Pairwise fun a b => Alike a b → positionLe a b = true

instance (symbols : List Symbol) : Decidable (MetInOrder symbols) :=
  inferInstanceAs (Decidable (List.Pairwise _ _))

/-- Comparing symbols with what is stored of them changes nothing exactly when those that could be
    taken for each other are met in the order of their positions. -/
theorem between_stored_iff {symbols : List Symbol} (distinct : (symbols.map (·.id)).Nodup) :
    between (stored symbols) symbols = { unchanged := symbols } ↔ MetInOrder symbols := by
  have perm : (stored symbols).Perm symbols := by
    rw [stored_eq distinct]
    exact List.mergeSort_perm symbols positionLe
  have exists_stored {s : Symbol} {n : Nat} (place : symbols[n]? = some s) :
      ∃ k, (stored symbols)[k]? = some s :=
    List.mem_iff_getElem?.mp (perm.mem_iff.mpr (List.mem_of_getElem? place))
  rw [between_self_iff perm distinct, selfMatched_iff perm (nodup_of_ids distinct), MetInOrder,
    List.pairwise_iff_getElem]
  constructor
  · intro kept m n insideM insideN before alike
    have hm : symbols[m]? = some symbols[m] := List.getElem?_eq_getElem insideM
    have hn : symbols[n]? = some symbols[n] := List.getElem?_eq_getElem insideN
    obtain ⟨k, hk⟩ := exists_stored hm
    obtain ⟨l, hl⟩ := exists_stored hn
    exact (stored_lt_iff distinct hm hn hk hl before).mp
      (kept _ _ m n k l hm hn hk hl before alike)
  · intro inOrder a b m n k l hm hn hk hl before alike
    rw [stored_lt_iff distinct hm hn hk hl before]
    obtain ⟨insideM, rfl⟩ := List.getElem?_eq_some_iff.mp hm
    obtain ⟨insideN, rfl⟩ := List.getElem?_eq_some_iff.mp hn
    exact inOrder m n insideM insideN before alike

/-! ## Extracting again -/

theorem extracted_ids {p : Parsed} {unit : SourceUnit} {snippetChars : Nat}
    (apart : Seed.Apart (Seed.ofPool (p.symbols unit snippetChars))) :
    ((p.symbols unit snippetChars).map (·.id)).Nodup := by
  have walked := p.symbols_walked unit snippetChars
  refine walked.ids_nodup apart fun n inside => ?_
  have path : (p.symbols unit snippetChars)[n].unit.path = unit.path :=
    congrArg UnitRef.path (walked n inside).unit
  have few : Extract.namesakes ((p.symbols unit snippetChars).take n)
      (p.symbols unit snippetChars)[n] < (p.symbols unit snippetChars).length := by
    refine Nat.lt_of_le_of_lt List.countP_le_length ?_
    rw [List.length_take]
    omega
  have listed := Seed.mem_ofPool (List.getElem_mem inside) (Seed.mem_ordinals_low few)
  rw [path] at listed
  exact listed

/-- Extracting the symbols of a file again and comparing them with what is stored of the first
    extraction changes nothing exactly when symbols that could be taken for each other are met in
    the order of their positions. -/
theorem reextracted_unchanged_iff (p : Parsed) (unit : SourceUnit) (snippetChars : Nat)
    (apart : Seed.Apart (Seed.ofPool (p.symbols unit snippetChars))) :
    between (stored (p.symbols unit snippetChars)) (p.symbols unit snippetChars) =
      { unchanged := p.symbols unit snippetChars } ↔ MetInOrder (p.symbols unit snippetChars) :=
  between_stored_iff (extracted_ids apart)

/-! ## Two calls on one line -/

/-- The variable `x`. -/
def variableAt (start : Nat) : Concrete :=
  .node { kind := "identifier", field := some "object", span := ⟨start, start + 1, 1, 1⟩ } []

/-- The call of the method `b` of an object, whose text begins where that of the object does. -/
def methodCall (object : Concrete) (start finish : Nat) : Concrete :=
  let name : Concrete := .node
    { kind := "identifier", field := some "attribute", span := ⟨finish - 3, finish - 2, 1, 1⟩ } []
  let callee : Concrete := .node
    { kind := "attribute", field := some "function", span := ⟨start, finish - 2, 1, 1⟩ } [object, name]
  let arguments : Concrete := .node
    { kind := "argument_list", field := some "arguments", span := ⟨finish - 2, finish, 1, 1⟩ } []
  .node { kind := "call", field := some "object", span := ⟨start, finish, 1, 1⟩ } [callee, arguments]

def oneLine (text : String) (statements : List Concrete) : Parsed :=
  let tree : Concrete :=
    .node { kind := "module", span := ⟨0, text.utf8ByteSize, 1, 1⟩ } statements
  .ofSource { text, trees := [(.python, tree)] } .python (Digest.contentHash text)

def lineUnit : SourceUnit :=
  { (default : SourceUnit) with path := "a.py" }

def sideBySide : Parsed :=
  oneLine "x.b();x.b()" [methodCall (variableAt 0) 0 5, methodCall (variableAt 6) 6 11]

/-- Two calls side by side are alike, but stored in the order in which they are met. -/
theorem sideBySide_unchanged :
    Seed.Apart (Seed.ofPool (sideBySide.symbols lineUnit 2000)) ∧
      between (stored (sideBySide.symbols lineUnit 2000)) (sideBySide.symbols lineUnit 2000) =
        { unchanged := sideBySide.symbols lineUnit 2000 } := by
  have distinct : (((Seed.ordinals 2).map fun n =>
      (⟨"a.py", .call, "b", n⟩ : Seed)).map Seed.digest).Nodup := by decide +kernel
  have known : Seed.ofPool (sideBySide.symbols lineUnit 2000) ⊆
      (Seed.ordinals 2).map fun n => (⟨"a.py", .call, "b", n⟩ : Seed) := by decide +kernel
  have apart := (Seed.Apart.of_nodup distinct).mono known
  have inOrder : MetInOrder (sideBySide.symbols lineUnit 2000) := by decide +kernel
  exact ⟨apart, (reextracted_unchanged_iff sideBySide lineUnit 2000 apart).mpr inOrder⟩

/-- The symbols of a chain: the outer call, which is met first, and the inner one. -/
def chained : List Symbol :=
  (oneLine "x.b().b()" [methodCall (methodCall (variableAt 0) 0 5) 0 9]).symbols lineUnit 2000

theorem mergeSort_pair {α : Type} {le : α → α → Bool} {a b : α} (behind : le a b = false) :
    [a, b].mergeSort le = [b, a] := by
  simp [List.mergeSort, List.MergeSort.Internal.splitInTwo, behind]

/-- The inner call ends first, so it is stored first. -/
theorem stored_chained : stored chained = chained.reverse := by
  have distinct : (chained.map (·.id)).Nodup := by decide +kernel
  have two : chained = [chained[0]!, chained[1]!] := by decide +kernel
  have behind : positionLe chained[0]! chained[1]! = false := by decide +kernel
  rw [stored_eq distinct]
  calc
    chained.mergeSort positionLe = [chained[0]!, chained[1]!].mergeSort positionLe := by rw [← two]
    _ = [chained[1]!, chained[0]!] := mergeSort_pair behind
    _ = chained.reverse := by rw [two]; rfl

theorem matching_chained : matching chained.reverse chained = [(0, 0), (1, 1)] := by
  have sorted : (candidates (ofIdentity chained.reverse (.call, "b"))
      (ofIdentity chained (.call, "b"))).Pairwise fun a b => a.le b = true := by decide +kernel
  have one : (chained.map identity).eraseDups = [(.call, "b")] := by decide +kernel
  rw [matching_eq, one, List.flatMap_singleton, pairs_eq, queue, List.mergeSort_of_pairwise sorted]
  decide +kernel

/-- Extracted once more, each of the two calls takes over the id of the other one. -/
theorem chained_swapped :
    (between (stored chained) chained).isNoop = false ∧
      (between (stored chained) chained).unchanged = [] ∧
      (between (stored chained) chained).modified.map (·.span) = chained.map (·.span) ∧
      (between (stored chained) chained).modified.map (·.id) = (chained.map (·.id)).reverse := by
  rw [stored_chained]
  simp only [between, matching_chained]
  decide +kernel

end CodeSearch.SymbolDiff
