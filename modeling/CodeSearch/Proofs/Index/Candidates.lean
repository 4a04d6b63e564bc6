import CodeSearch.Index.Search
import CodeSearch.Proofs.Filter
import CodeSearch.Proofs.Index.Consistency
import CodeSearch.Proofs.Index.Labels

/-! # Candidates of a question

The vectors, the names and the patterns of a question bring in candidates one after the other. Each
of them stands for a held symbol that passes the filters on metadata, be it because its record says
so. No symbol that is looked up is left out, since a candidate that came in earlier stays.
-/

namespace CodeSearch.CodeIndex

open IndexState (Consistent Labelling)

variable {w : CodeIndex} {filters : FilterSet} {query : Vector} {cs : Candidates}

/-- Candidates stand for held symbols that pass the filters on metadata. With a store that looks at
    every record, each is as similar to the question as its symbol. -/
structure Eligible (w : CodeIndex) (filters : FilterSet) (query : Vector) (cs : Candidates) :
    Prop where
  keys : (Keyed.keys cs).Nodup
  held : ∀ c ∈ cs, ∃ s, w.state.symbol? c.1 = some s ∧ filters.matchesMetadata s.metadata = true ∧
    (w.state.vectors.store.pushesDown = true → c.2 = w.state.similarity query s)

theorem Eligible.nil : Eligible w filters query [] :=
  ⟨List.nodup_nil, fun _ none => absurd none List.not_mem_nil⟩

theorem Eligible.put (h : Eligible w filters query cs) {s : Symbol} {similarity : Score}
    (held : w.state.symbol? s.id = some s) (passes : filters.matchesMetadata s.metadata = true)
    (exact : w.state.vectors.store.pushesDown = true → similarity = w.state.similarity query s) :
    Eligible w filters query (Keyed.put cs s.id similarity) := by
  refine ⟨Keyed.nodup_put h.keys s.id similarity, fun c inside => ?_⟩
  rcases Keyed.mem_put inside with earlier | rfl
  · exact h.held c earlier
  · exact ⟨s, held, passes, exact⟩

/-! ## Similar vectors -/

/-- A candidate of the search stands for a held symbol that passes the filters. -/
theorem symbol_of_candidate (consistent : w.state.Consistent) (labelling : Labelling w.state)
    {k : Nat} {found : List Candidate}
    (searched : w.state.vectors.filteredSearch query k
      (if filters.hasMetadataFilters then some filters.matchesMetadata else none) = .ok found)
    {c : Candidate} (inside : c ∈ found) :
    ∃ s, s.id = c.id ∧ w.state.symbol? s.id = some s ∧ filters.matchesMetadata s.metadata = true ∧
      (w.state.vectors.store.pushesDown = true → c.similarity = w.state.similarity query s) := by
  obtain ⟨admitted, record, held, metadata, similarity⟩ :=
    VectorIndex.filteredSearch_ok labelling.distinct labelling.sound.ownIds searched c inside
  obtain ⟨s, heldSymbol, -, label⟩ := labelling.labelled c.id record held
  have own : s.id = c.id := consistent.ownId c.id s heldSymbol
  refine ⟨s, own, own ▸ heldSymbol, ?_, fun exact => ?_⟩
  · rw [metadata, label] at admitted
    split at admitted
    · exact admitted
    · rename_i none
      exact FilterSet.matchesMetadata_of_none (Bool.not_eq_true _ ▸ none) s.metadata
  · have found : w.state.vectors.similarityTo query s.id = some (query.cosine record.vector) := by
      rw [own, VectorIndex.similarityTo, show w.state.vectors.get? c.id = some record from held,
        Option.map_some]
    rw [similarity exact, IndexState.similarity, found]
    rfl

theorem vectorCandidates_eligible (consistent : w.state.Consistent) (labelling : Labelling w.state)
    {topK : Nat} (searched : w.vectorCandidates filters query topK = .ok cs) :
    Eligible w filters query cs := by
  unfold vectorCandidates at searched
  extract_lets fetch restriction at searched
  cases result : w.state.vectors.filteredSearch query fetch restriction with
  | error cause => simp [result, Except.mapError, bind, Except.bind] at searched
  | ok found =>
      simp only [result, Except.mapError, bind, Except.bind, pure, Except.pure,
        Except.ok.injEq] at searched
      rw [← searched]
      refine List.foldlRecOn (motive := Eligible w filters query) found _ .nil
        fun cs eligible c inside => ?_
      obtain ⟨s, own, held, passes, exact⟩ := symbol_of_candidate consistent labelling result inside
      exact own ▸ eligible.put held passes exact

theorem vectorCandidates_total (valid : query.validate w.state.vectors.store.dimension = .ok ())
    (filters : FilterSet) (topK : Nat) : ∃ cs, w.vectorCandidates filters query topK = .ok cs := by
  unfold vectorCandidates
  extract_lets fetch restriction
  obtain ⟨found, searched⟩ := VectorIndex.filteredSearch_total valid fetch restriction
  simp only [searched, Except.mapError, bind, Except.bind, pure, Except.pure]
  exact ⟨_, rfl⟩

/-! ## Symbols that are looked up -/

theorem addSymbols_eligible (h : Eligible w filters query cs) {symbols : List Symbol}
    (held : ∀ s ∈ symbols, w.state.symbol? s.id = some s) :
    Eligible w filters query (w.addSymbols filters query cs symbols) := by
  refine List.foldlRecOn (motive := Eligible w filters query) symbols _ h
    fun cs eligible s inside => ?_
  split
  · rename_i passes
    unfold addCandidate
    split
    · exact eligible
    · exact eligible.put (held s inside) passes fun _ => rfl
  · exact eligible

theorem has_addCandidate (cs : Candidates) (id other : SymbolId) (similarity : Unit → Score) :
    Keyed.has (addCandidate cs id similarity) other = true ↔
      other = id ∨ Keyed.has cs other = true := by
  unfold addCandidate
  split
  · rename_i there
    exact ⟨.inr, fun h => h.elim (fun same => same ▸ there) fun earlier => earlier⟩
  · rw [Keyed.has, Keyed.get?_put]
    split
    · rename_i same
      exact iff_of_true rfl (.inl same)
    · rename_i different
      rw [← Keyed.has, or_iff_right different]

/-- Every symbol that passes the filters comes in, and what came in earlier stays. -/
theorem has_addSymbols {symbols : List Symbol} {id : SymbolId} :
    Keyed.has (w.addSymbols filters query cs symbols) id = true ↔ Keyed.has cs id = true ∨
      ∃ s ∈ symbols, filters.matchesMetadata s.metadata = true ∧ id = s.id := by
  induction symbols generalizing cs with
  | nil => simp [addSymbols]
  | cons s rest ih =>
      rw [addSymbols, List.foldl_cons, ← addSymbols, ih, List.exists_mem_cons_iff]
      split
      · rename_i passes
        rw [has_addCandidate]
        tauto
      · rename_i fails
        tauto

/-- A term of a question that is in lower case finds the symbols whose names it is. -/
theorem mem_namedBy (consistent : w.state.Consistent) {terms : List String}
    (lowered : ∀ t ∈ terms, Text.lower t = t) {s : Symbol} :
    s ∈ w.namedBy terms ↔ w.state.symbol? s.id = some s ∧
      (Text.lower s.name ∈ terms ∨ Text.lower s.qualifiedName ∈ terms) := by
  unfold namedBy
  simp only [List.mem_flatMap, List.mem_filterMap]
  constructor
  · rintro ⟨term, asked, id, listed, held⟩
    have own : s.id = id := consistent.ownId id s held
    obtain ⟨same, heldToo, name⟩ := (consistent.found _ id).mp listed
    rw [held] at heldToo
    cases heldToo
    rw [lowered term asked] at name
    refine ⟨own ▸ held, ?_⟩
    rcases name with rfl | rfl
    · exact .inl asked
    · exact .inr asked
  · rintro ⟨held, named⟩
    have found (term : String) (asked : term ∈ terms)
        (name : term = Text.lower s.name ∨ term = Text.lower s.qualifiedName) :
        s.id ∈ w.state.lookupName term :=
      (consistent.found _ s.id).mpr ⟨s, held, (lowered term asked).symm ▸ name⟩
    rcases named with name | qualifiedName
    · exact ⟨_, name, s.id, found _ name (.inl rfl), held⟩
    · exact ⟨_, qualifiedName, s.id, found _ qualifiedName (.inr rfl), held⟩

theorem mem_patternBearers (consistent : w.state.Consistent) {s : Symbol} :
    s ∈ w.patternBearers filters ↔ filters.hasPatternFilters = true ∧
      w.state.symbol? s.id = some s ∧ (s.kind = .type ∨ s.kind = .function) := by
  unfold patternBearers
  split
  · rename_i patterns
    rw [List.mem_filter, consistent.mem_allSymbols, Bool.or_eq_true, beq_iff_eq, beq_iff_eq]
    exact (and_iff_right patterns).symm
  · rename_i none
    exact iff_of_false List.not_mem_nil fun h => none h.1

/-! ## Entries -/

/-- What is ranked are the candidates that pass the filters on patterns as well. -/
theorem mem_entries (consistent : w.state.Consistent) {s : Symbol} {similarity : Score} :
    (s, similarity) ∈ w.entries filters cs ↔ (s.id, similarity) ∈ cs ∧
      w.state.symbol? s.id = some s ∧ w.passesPatterns filters s = true := by
  unfold entries
  rw [List.mem_filterMap]
  constructor
  · rintro ⟨⟨id, similarity⟩, inside, chosen⟩
    obtain ⟨t, held, chosen⟩ := Option.bind_eq_some_iff.mp chosen
    split at chosen
    · rename_i passes
      cases chosen
      have own : s.id = id := consistent.ownId id s held
      exact ⟨own ▸ inside, own ▸ held, ((Bool.and_eq_true _ _).to_iff.mp passes).2⟩
    · cases chosen
  · rintro ⟨inside, held, passes⟩
    have current : w.state.isCurrent s = true :=
      consistent.current (consistent.mem_allSymbols.mpr held)
    refine ⟨_, inside, Option.bind_eq_some_iff.mpr ⟨s, held, ?_⟩⟩
    rw [current, passes]
    rfl

theorem entries_ids (consistent : w.state.Consistent) (keys : (Keyed.keys cs).Nodup) :
    ((w.entries filters cs).map (·.1.id)).Nodup := by
  have own {c : SymbolId × Score} {e : Ranking.Entry}
      (chosen : (do
        let s ← w.state.symbol? c.1
        if w.state.isCurrent s && w.passesPatterns filters s then some (s, c.2) else none) = some e) :
      e.1.id = c.1 := by
    obtain ⟨s, held, chosen⟩ := Option.bind_eq_some_iff.mp chosen
    split at chosen
    · cases chosen
      exact consistent.ownId c.1 s held
    · cases chosen
  have different : cs.Pairwise fun a b => a.1 ≠ b.1 := List.pairwise_map.mp keys
  refine List.pairwise_map.mpr (List.pairwise_filterMap.mpr (different.imp ?_))
  intro a b apart e he f hf same
  exact apart ((own he).symm.trans (same.trans (own hf)))

end CodeSearch.CodeIndex
