import CodeSearch.Proofs.Index.Interleaving
import CodeSearch.Proofs.Index.References

/-! # Patterns of held symbols

The patterns of a symbol are found in two ways: for one symbol that is held, whose bases are looked
up among all that is held, and for all symbols of a file at once, whose bases are looked up in the
file. Both are the same, since what a held symbol mentions is held in its own file.
-/

namespace CodeSearch

open Time (Instant)

/-- Patterns are looked for in what encloses other symbols. -/
theorem SymbolKind.encloses_iff {k : SymbolKind} :
    (k == .type || k == .function) = true ↔ k.Encloses := by
  rw [Bool.or_eq_true, beq_iff_eq, beq_iff_eq, Encloses]

/-! ## The subjects of a file -/

namespace Subject

theorem mem_all {symbols : List Symbol} {s : Subject} :
    s ∈ all symbols ↔ ∃ symbol ∈ symbols, symbol.kind.Encloses ∧ of symbols symbol = s := by
  simp only [all, List.mem_map, List.mem_filter, SymbolKind.encloses_iff, and_assoc]

/-- A file has one subject for each id. -/
theorem eq_of_id {symbols : List Symbol} (distinct : (symbols.map (·.id)).Nodup) {s t : Subject}
    (hs : s ∈ all symbols) (ht : t ∈ all symbols) (same : s.symbol.id = t.symbol.id) : s = t := by
  obtain ⟨a, ha, -, rfl⟩ := mem_all.mp hs
  obtain ⟨b, hb, -, rfl⟩ := mem_all.mp ht
  exact congrArg (of symbols) (List.inj_on_of_nodup_map distinct ha hb same)

/-- Names of bases depend on the symbols only that the bases point at. -/
theorem baseNames_congr {s : Symbol} {nameOf other : SymbolId → Option String}
    (same : ∀ r ∈ s.relations, ∀ id, r.target = .resolved id → nameOf id = other id) :
    baseNames s nameOf = baseNames s other := by
  unfold baseNames
  congr 1
  refine List.filterMap_congr fun id inside => ?_
  obtain ⟨r, hr, target⟩ := List.mem_filterMap.mp inside
  refine same r (List.mem_filter.mp hr).1 id ?_
  unfold Relation.targetId? at target
  split at target
  · rename_i known
    exact known.trans (congrArg _ (Option.some.inj target))
  · cases target

end Subject

namespace Detector

/-- What a file lists for a subject; without an entry there are no matches. -/
theorem detectAll_entry (d : Detector) {symbols : List Symbol}
    (distinct : (symbols.map (·.id)).Nodup) {s : Subject} (hs : s ∈ Subject.all symbols) :
    (Keyed.get? (d.detectAll symbols) s.symbol.id).getD [] = d.detect s := by
  have keys :
      (Keyed.keys ((Subject.all symbols).map fun s => (s.symbol.id, d.detect s))).Nodup := by
    simp only [Keyed.keys, Subject.all, List.map_map]
    exact distinct.sublist (List.filter_sublist.map _)
  have listed {found : List PatternMatch} : (s.symbol.id, found) ∈ d.detectAll symbols ↔
      found = d.detect s ∧ found ≠ [] := by
    simp only [detectAll, List.mem_filter, List.mem_map, Prod.mk.injEq, Bool.not_eq_true',
      List.isEmpty_eq_false_iff]
    refine and_congr_left fun _ => ⟨?_, fun same => ⟨s, hs, rfl, same.symm⟩⟩
    rintro ⟨t, ht, same, rfl⟩
    rw [Subject.eq_of_id distinct ht hs same]
  cases entry : Keyed.get? (d.detectAll symbols) s.symbol.id with
  | some found => exact (listed.mp (Keyed.mem_of_get? entry)).1
  | none =>
      -- only subjects without matches are left out
      by_contra other
      have inside := listed.mpr ⟨rfl, Ne.symm other⟩
      have present := Keyed.get?_of_mem (Keyed.nodup_filter keys _) inside
      exact Option.some_ne_none _ (present.symm.trans entry)

end Detector

/-! ## Held symbols -/

namespace IndexState

variable {s : IndexState}

theorem Consistent.find?_symbolsOf (consistent : s.Consistent) {path : String} {id : SymbolId}
    {symbol : Symbol} (held : s.symbol? id = some symbol) (place : symbol.unit.path = path) :
    (s.symbolsOf path).reverse.find? (·.id == id) = some symbol := by
  obtain rfl : symbol.id = id := consistent.ownId id symbol held
  have listed : symbol ∈ s.symbolsOf path := consistent.mem_symbolsOf.mpr ⟨held, place⟩
  cases found : (s.symbolsOf path).reverse.find? (·.id == symbol.id) with
  | none =>
      have none := List.find?_eq_none.mp found symbol (List.mem_reverse.mpr listed)
      exact absurd (beq_self_eq_true _) none
  | some other =>
      have inside := List.mem_reverse.mp (List.mem_of_find?_eq_some found)
      have same : other.id = symbol.id := by simpa using List.find?_some found
      rw [List.inj_on_of_nodup_map (consistent.symbolsOf_nodup path) inside listed same]

/-- The subject of a held symbol is the one that its file has for it. -/
theorem Grounded.subjectOf_eq (consistent : s.Consistent) {symbol : Symbol}
    (grounded : s.Grounded symbol) :
    s.subjectOf symbol = Subject.of (s.symbolsOf symbol.unit.path) symbol := by
  rw [subjectOf, Subject.of]
  congr 1
  refine Subject.baseNames_congr fun r hr id target => ?_
  obtain ⟨other, held, place⟩ := grounded.targets r hr id target
  rw [held, consistent.find?_symbolsOf held place]

/-- The patterns of a symbol, and those that its file has for it. -/
structure PatternsAgree (s : IndexState) (d : Detector) (symbol : Symbol) : Prop where
  subject : ∃ subject ∈ Subject.all (s.symbolsOf symbol.unit.path), subject.symbol = symbol
  detected : ∀ subject ∈ Subject.all (s.symbolsOf symbol.unit.path),
    subject.symbol.id = symbol.id → s.patternsFor d symbol = d.detect subject
  entry : (Keyed.get? (d.detectAll (s.symbolsOf symbol.unit.path)) symbol.id).getD [] =
    s.patternsFor d symbol

theorem Grounded.patternsAgree (consistent : s.Consistent) {id : SymbolId} {symbol : Symbol}
    (held : s.symbol? id = some symbol) (grounded : s.Grounded symbol)
    (kind : symbol.kind.Encloses) (d : Detector) : s.PatternsAgree d symbol := by
  have own : symbol.id = id := consistent.ownId id symbol held
  have distinct := consistent.symbolsOf_nodup symbol.unit.path
  have listed := consistent.mem_symbolsOf.mpr ⟨own.symm ▸ held, rfl⟩
  have inside : Subject.of (s.symbolsOf symbol.unit.path) symbol ∈
      Subject.all (s.symbolsOf symbol.unit.path) := Subject.mem_all.mpr ⟨symbol, listed, kind, rfl⟩
  have patterns : s.patternsFor d symbol =
      d.detect (Subject.of (s.symbolsOf symbol.unit.path) symbol) := by
    rw [patternsFor, if_pos (SymbolKind.encloses_iff.mpr kind), grounded.subjectOf_eq consistent]
  refine ⟨⟨_, inside, rfl⟩, fun subject known same => ?_, ?_⟩
  · rw [patterns, Subject.eq_of_id distinct inside known same.symm]
  · exact (d.detectAll_entry distinct inside).trans patterns.symm

end IndexState

namespace CodeIndex

/-- Whatever an index becomes, also while passes go on, a detector of any threshold finds in a type
    or function that is held what it finds in the subject that the file has for it. So the index
    answers with the entry of the file for the symbol, and with no match if there is no entry. -/
theorem reached_patterns {c : IndexConfig} {parts : IndexParts} {now : Instant} {w v : CodeIndex}
    (built : build c parts now = .ok w) {changes : List FileChange}
    (reached : w.Reaches parts.store changes v)
    (apart : Seed.Apart (seedsOf parts.registered c.pipeline.snippetChars changes))
    {id : SymbolId} {symbol : Symbol} (held : v.state.symbol? id = some symbol)
    (kind : symbol.kind.Encloses) :
    (∀ d, v.state.PatternsAgree d symbol) ∧
      v.patterns id = .ok ((Keyed.get? (v.detector.detectAll
        (v.state.symbolsOf symbol.unit.path)) id).getD []) := by
  have tracked := (reached.running built apart).tracked
  have agree := (tracked.grounded held).patternsAgree tracked.consistent held kind
  refine ⟨agree, ?_⟩
  obtain rfl : symbol.id = id := tracked.consistent.ownId id symbol held
  simp only [patterns, CodeIndex.symbol, held, (agree v.detector).entry]
  rfl

theorem busyRun_patterns : ∃ id symbol,
    (smallIndex.undergo busyRun).state.symbol? id = some symbol ∧ symbol.kind.Encloses ∧
      (∀ d, (smallIndex.undergo busyRun).state.PatternsAgree d symbol) ∧
      (smallIndex.undergo busyRun).patterns id =
        .ok ((Keyed.get? ((smallIndex.undergo busyRun).detector.detectAll
          ((smallIndex.undergo busyRun).state.symbolsOf symbol.unit.path)) id).getD []) := by
  have held : ((smallIndex.undergo busyRun).state.symbol?
      (SymbolId.derive "a.py" .function "f" 0)).map (·.kind) = some .function := by decide +kernel
  obtain ⟨symbol, heldHere, kind⟩ := Option.map_eq_some_iff.mp held
  have reached : smallIndex.Reaches none (incoming busyRun) (smallIndex.undergo busyRun) :=
    .sideBySide busyRun nofun
  exact ⟨_, symbol, heldHere, .inr kind,
    reached_patterns build_small reached busyRun_apart heldHere (.inr kind)⟩

end CodeIndex

end CodeSearch
