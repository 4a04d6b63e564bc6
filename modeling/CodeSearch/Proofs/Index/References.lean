import CodeSearch.Index.Basic
import CodeSearch.Proofs.Index.Scratch
import CodeSearch.Proofs.Text

/-! # References between symbols

What a symbol mentions is held as long as it is held itself: its parent, and the symbols that its
relations point at, are symbols of the same file. For that, the symbols of a version mention each
other only, and they take new ids all together. A name that was left open is looked for among all
files whenever it is asked for, so that nothing has to be kept right for it: it stands for exactly
those definitions that have the name now.
-/

namespace CodeSearch

open Time (Instant)

/-- The kinds of symbols that a relation can point at. -/
def RelationKind.wanted : RelationKind → List SymbolKind
  | .calls => [.function, .type]
  | .inherits => [.type]
  | .imports => [.function, .type, .var]

theorem RelationKind.wants_iff {r : RelationKind} {k : SymbolKind} :
    r.wants k = true ↔ k ∈ r.wanted := by
  cases r with
  | calls | inherits | imports => cases k <;> decide

/-! ## Mentions under new ids -/

theorem Relation.target_rename {f : SymbolId → SymbolId} {r : Relation} {id : SymbolId}
    (target : (r.rename f).target = .resolved id) : ∃ own, r.target = .resolved own ∧ f own = id := by
  obtain ⟨kind, written⟩ := r
  cases written with
  | unresolved name => cases target
  | resolved own =>
      cases target
      exact ⟨own, rfl, rfl⟩

theorem Symbol.Within.rename {ids : List SymbolId} {s : Symbol} (h : s.Within ids)
    (f : SymbolId → SymbolId) : (s.rename f).Within (ids.map f) := by
  constructor
  case parent =>
    intro id parent
    obtain ⟨own, known, rfl⟩ := Option.map_eq_some_iff.mp parent
    exact List.mem_map_of_mem (h.parent own known)
  case targets =>
    intro r hr id target
    obtain ⟨original, listed, rfl⟩ := List.mem_map.mp hr
    obtain ⟨own, known, rfl⟩ := Relation.target_rename target
    exact List.mem_map_of_mem (h.targets original listed own known)

/-- Symbols that mention each other only still do so under new ids. -/
theorem Renders.closed {f : SymbolId → SymbolId} {original held : List Symbol}
    (h : Renders f original held) (closed : Extract.Closed original) : Extract.Closed held := by
  intro s hs
  obtain ⟨o, ho, same⟩ := List.mem_map.mp (h.perm.mem_iff.mp (List.mem_map_of_mem hs))
  have within : (o.rename f).Within ((original.map (·.id)).map f) := (closed o ho).rename f
  have ids : (original.map (·.id)).map f ⊆ held.map (·.id) := by
    intro id inside
    obtain ⟨own, known, rfl⟩ := List.mem_map.mp inside
    obtain ⟨t, ht, rfl⟩ := List.mem_map.mp known
    exact h.ids.mpr ⟨t, ht, rfl⟩
  rw [same] at within
  exact ⟨fun id parent => ids (within.parent id parent),
    fun r hr id target => ids (within.targets r hr id target)⟩

namespace IndexState

/-! ## What is mentioned -/

/-- A symbol of a file is held under an id. -/
def HeldIn (s : IndexState) (path : String) (id : SymbolId) : Prop :=
  ∃ symbol, s.symbol? id = some symbol ∧ symbol.unit.path = path

/-- All that a symbol mentions is held, and is of the same file. -/
structure Grounded (s : IndexState) (symbol : Symbol) : Prop where
  parent : ∀ id, symbol.parent = some id → s.HeldIn symbol.unit.path id
  targets : ∀ r ∈ symbol.relations, ∀ id, r.target = .resolved id → s.HeldIn symbol.unit.path id

theorem Grounded.of_closed {s : IndexState} (consistent : s.Consistent) {symbol : Symbol}
    {id : SymbolId} (held : s.symbol? id = some symbol)
    (closed : Extract.Closed (s.symbolsOf symbol.unit.path)) : s.Grounded symbol := by
  have listed : symbol ∈ s.symbolsOf symbol.unit.path := by
    have own : symbol.id = id := consistent.ownId id symbol held
    exact consistent.mem_symbolsOf.mpr ⟨own.symm ▸ held, rfl⟩
  have within := closed symbol listed
  have inside {other : SymbolId} (known : other ∈ (s.symbolsOf symbol.unit.path).map (·.id)) :
      s.HeldIn symbol.unit.path other := by
    rw [consistent.symbolsOf_ids] at known
    exact consistent.mem_idsOf.mp known
  exact ⟨fun other parent => inside (within.parent other parent),
    fun r hr other target => inside (within.targets r hr other target)⟩

/-! ## What a written name stands for -/

/-- A symbol that a written name can stand for. -/
structure Answers (kind : RelationKind) (written : String) (symbol : Symbol) : Prop where
  kind : symbol.kind ∈ kind.wanted
  name : Text.eqIgnoringAsciiCase symbol.name (Text.lastSegment written) = true

/-- What becomes of a relation: the one symbol that it points at, or all symbols that its name can
    stand for, in the order of their ids. -/
inductive Resolves (s : IndexState) : Relation → ResolvedRelation → Prop where
  | target {kind : RelationKind} {id : SymbolId} {symbol : Symbol} :
      s.symbol? id = some symbol → Resolves s ⟨kind, .resolved id⟩ ⟨kind, symbol.name, [id]⟩
  | name {kind : RelationKind} {written : String} {ids : List SymbolId} : IdSet.Ascending ids →
      (∀ id, id ∈ ids ↔ ∃ symbol, s.symbol? id = some symbol ∧ Answers kind written symbol) →
      Resolves s ⟨kind, .unresolved written⟩ ⟨kind, written, ids⟩

section

variable {s : IndexState}

theorem definitionsNamed_ascending (consistent : s.Consistent) (kind : RelationKind)
    (written : String) : IdSet.Ascending (s.definitionsNamed kind written) :=
  List.Pairwise.sublist List.filter_sublist (consistent.table.found_ascending _)

theorem mem_definitionsNamed (consistent : s.Consistent) {kind : RelationKind} {written : String}
    {id : SymbolId} : id ∈ s.definitionsNamed kind written ↔
      ∃ symbol, s.symbol? id = some symbol ∧ Answers kind written symbol := by
  have kept : id ∈ s.definitionsNamed kind written ↔
      id ∈ found s.byName (Text.lower (Text.lastSegment written)) ∧
        ∃ symbol, s.symbol? id = some symbol ∧ Answers kind written symbol := by
    unfold definitionsNamed
    simp only [List.mem_filter, Option.any_eq_true, Bool.and_eq_true, RelationKind.wants_iff]
    constructor
    · rintro ⟨found, symbol, held, kind, name⟩
      exact ⟨found, symbol, held, kind, name⟩
    · rintro ⟨found, symbol, held, answers⟩
      exact ⟨found, symbol, held, answers.kind, answers.name⟩
  rw [kept, and_iff_right_iff_imp]
  -- names are listed in lower case, which does not see the case of ASCII letters either
  rintro ⟨symbol, held, answers⟩
  have key : Text.lower symbol.name = Text.lower (Text.lastSegment written) :=
    Text.lower_eq_of_eqIgnoringAsciiCase answers.name
  exact (consistent.found _ id).mpr ⟨symbol, held, .inl key.symm⟩

theorem Grounded.resolves (consistent : s.Consistent) {symbol : Symbol}
    (grounded : s.Grounded symbol) {r : Relation} (hr : r ∈ symbol.relations) :
    Resolves s r (s.resolve r) := by
  obtain ⟨kind, target⟩ := r
  cases target with
  | resolved id =>
      obtain ⟨other, held, -⟩ := grounded.targets _ hr id rfl
      simp only [resolve, held]
      exact .target held
  | unresolved written =>
      exact .name (s.definitionsNamed_ascending consistent kind written)
        fun _ => mem_definitionsNamed consistent

end

end IndexState

theorem Tracked.grounded {registered : List Language} {snippetChars : Nat}
    {changes : List FileChange} {s : IndexState} (tracked : Tracked registered snippetChars changes s)
    {id : SymbolId} {symbol : Symbol} (held : s.symbol? id = some symbol) : s.Grounded symbol := by
  obtain ⟨entry, heldUnit, -, -⟩ := tracked.consistent.home held
  obtain ⟨r, -, -, f, renders⟩ := tracked.rendered _ entry heldUnit
  exact .of_closed tracked.consistent held (renders.closed (r.parsed.symbols_closed _ _))

namespace CodeIndex

/-- Whatever is done to an index, a held symbol mentions only symbols of its file that are held
    too, and each of its relations resolves, in their order: one that points at a symbol to this
    one, and one that leaves a name to all held symbols, of any file, that the name can stand for. -/
theorem run_references {c : IndexConfig} {parts : IndexParts} {now : Instant} {w : CodeIndex}
    (built : build c parts now = .ok w) (ops : List Operation)
    (apart : Seed.Apart (seedsOf parts.registered c.pipeline.snippetChars (changesOf ops))) :
    ∀ id symbol, (w.performAll ops).state.symbol? id = some symbol →
      (w.performAll ops).state.Grounded symbol ∧
        ∃ entries, (w.performAll ops).resolveRelations id = .ok entries ∧
          List.Forall₂ (w.performAll ops).state.Resolves symbol.relations entries := by
  intro id symbol held
  have running := (Running.build built (changesOf ops)).performAll apart (List.Subset.refl _)
  have grounded := running.tracked.grounded held
  refine ⟨grounded, symbol.relations.map (w.performAll ops).state.resolve, ?_, ?_⟩
  · simp only [resolveRelations, CodeIndex.symbol, held]
    rfl
  · rw [List.forall₂_map_right_iff, List.forall₂_same]
    exact fun r hr => grounded.resolves running.tracked.consistent hr

/-- A file with the call of a function of one letter. -/
def oneCall (text : String) : FileChange :=
  let whole : Syntax.Span := ⟨0, text.utf8ByteSize, 1, 1⟩
  let callee : Syntax.Concrete :=
    .node { kind := "identifier", field := some "function", span := ⟨0, 1, 1, 1⟩ } []
  let call : Syntax.Concrete := .node { kind := "call", span := whole } [callee]
  { path := "b.py"
    source := { text, trees := [(.python, .node { kind := "module", span := whole } [call])] } }

/-- A function is called before there is one of the name, and then one comes with a capital. -/
def callRun : List Operation :=
  [.index (oneCall "f()"), .index (oneFunction "F()")]

theorem callRun_apart : Seed.Apart (seedsOf Language.all 2000 (changesOf callRun)) := by
  have distinct : (((Seed.ordinals 2).flatMap fun n =>
      [(⟨"a.py", .function, "F", n⟩ : Seed), ⟨"b.py", .call, "f", n⟩]).map Seed.digest).Nodup := by
    decide +kernel
  have known : seedsOf Language.all 2000 (changesOf callRun) ⊆ (Seed.ordinals 2).flatMap fun n =>
      [(⟨"a.py", .function, "F", n⟩ : Seed), ⟨"b.py", .call, "f", n⟩] := by decide +kernel
  exact (Seed.Apart.of_nodup distinct).mono known

/-- The call is what is held of its file, also when there is the function. -/
theorem callRun_calls :
    ((smallIndex.performAll callRun).state.symbolsOf "b.py").map (·.relations) =
      [[⟨.calls, .unresolved "f"⟩]] := by
  decide +kernel

theorem callRun_references : ∃ id symbol,
    (smallIndex.performAll callRun).state.symbol? id = some symbol ∧
      symbol.relations = [⟨.calls, .unresolved "f"⟩] ∧
      (smallIndex.performAll callRun).state.Grounded symbol ∧
      ∃ entries, (smallIndex.performAll callRun).resolveRelations id = .ok entries ∧
        List.Forall₂ (smallIndex.performAll callRun).state.Resolves symbol.relations entries := by
  have running := (Running.build build_small (changesOf callRun)).performAll callRun_apart
    (List.Subset.refl _)
  obtain ⟨symbol, only, relations⟩ := List.map_eq_singleton_iff.mp callRun_calls
  obtain ⟨held, -⟩ :=
    running.tracked.consistent.mem_symbolsOf.mp (only ▸ List.mem_singleton_self symbol)
  exact ⟨_, symbol, held, relations,
    run_references build_small callRun callRun_apart _ symbol held⟩

end CodeIndex

end CodeSearch
