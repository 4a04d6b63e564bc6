import CodeSearch.Proofs.Vector.Store

/-! # What a search finds

A candidate of a search stands for the record that is held under its id: it has the metadata of
this record, which pass the restriction. A store that looks at every record tells with it how
similar the vector of this record is. For that, every record has to be listed once, under its own
id, which writing and dropping records keep so.
-/

namespace CodeSearch

/-- A candidate stands for the record under its id. -/
structure Candidate.StandsFor (s : VectorStore) (query : Vector) (c : Candidate) (r : Record) :
    Prop where
  held : s.get? c.id = some r
  metadata : c.metadata = r.metadata
  similarity : s.pushesDown = true → c.similarity = query.cosine r.vector

theorem Candidate.best_subset (k : Nat) (candidates : List Candidate) :
    Candidate.best k candidates ⊆ candidates :=
  fun _ inside => List.mem_mergeSort.mp (List.mem_of_mem_take inside)

theorem ExactStore.nodup_upsert {e : ExactStore} {r : Record} {after : ExactStore}
    (written : e.upsert r = .ok after) (distinct : (Keyed.keys e.records).Nodup) :
    (Keyed.keys after.records).Nodup := by
  cases valid : r.vector.validate e.dimension with
  | error cause =>
      rw [ExactStore.upsert_error valid] at written
      cases written
  | ok _ =>
      rw [ExactStore.upsert_ok valid] at written
      cases written
      exact Keyed.nodup_put distinct r.id r

theorem ExactStore.search_ok {e : ExactStore} {query : Vector} {k : Nat} {r : Restriction}
    {found : List Candidate} (searched : e.search query k r = .ok found)
    (distinct : (Keyed.keys e.records).Nodup)
    (own : ∀ id record, e.get? id = some record → record.id = id) {c : Candidate}
    (inside : c ∈ found) : ∃ record, e.get? c.id = some record ∧
      c = ⟨record.id, query.cosine record.vector, record.metadata⟩ ∧
      r.admits record.metadata = true := by
  unfold ExactStore.search at searched
  cases valid : query.validate e.dimension with
  | error cause => simp [valid, bind, Except.bind] at searched
  | ok _ =>
      simp only [valid, bind, Except.bind, pure, Except.pure, Except.ok.injEq] at searched
      rw [← searched] at inside
      obtain ⟨record, listed, rfl⟩ := List.mem_map.mp (Candidate.best_subset _ _ inside)
      obtain ⟨held, admitted⟩ := List.mem_filter.mp listed
      obtain ⟨id, here⟩ := (Keyed.mem_values distinct).mp held
      have same : record.id = id := own id record here
      exact ⟨record, same.symm ▸ here, rfl, admitted⟩

theorem GraphStore.candidate?_some {g : GraphStore} {r : Restriction} {number : Nat}
    {distance : Score} {c : Candidate} (known : g.candidate? r number distance = some c) :
    ∃ record, g.get? c.id = some record ∧ c.metadata = record.metadata ∧
      r.admits record.metadata = true := by
  unfold GraphStore.candidate? at known
  split at known
  · cases known
  · obtain ⟨-, -, known⟩ := Option.bind_eq_some_iff.mp known
    obtain ⟨id, -, known⟩ := Option.bind_eq_some_iff.mp known
    obtain ⟨record, held, known⟩ := Option.bind_eq_some_iff.mp known
    split at known
    · rename_i admitted
      cases known
      exact ⟨record, held, rfl, admitted⟩
    · cases known

theorem GraphStore.search_ok {g : GraphStore} {query : Vector} {k : Nat} {r : Restriction}
    {found : List Candidate} (searched : g.search query k r = .ok found) {c : Candidate}
    (inside : c ∈ found) : ∃ record, g.get? c.id = some record ∧ c.metadata = record.metadata ∧
      r.admits record.metadata = true := by
  unfold GraphStore.search at searched
  cases valid : query.validate g.dimension with
  | error cause => simp [valid, bind, Except.bind] at searched
  | ok _ =>
      simp only [valid, bind, Except.bind, pure, Except.pure] at searched
      split at searched
      · cases searched
        cases inside
      · rw [← Except.ok.inj searched] at inside
        obtain ⟨⟨number, distance⟩, -, known⟩ :=
          List.mem_filterMap.mp (Candidate.best_subset _ _ inside)
        exact candidate?_some known

namespace VectorStore

/-- Every record is listed once. -/
def Distinct : VectorStore → Prop
  | exact e => (Keyed.keys e.records).Nodup
  | graph _ => True
  | faulty e _ _ => (Keyed.keys e.records).Nodup

theorem Distinct.upsert {s : VectorStore} (h : s.Distinct) (r : Record) :
    (s.upsert r).2.Distinct := by
  cases s with
  | exact e =>
      simp only [VectorStore.upsert]
      split
      · rename_i after written
        exact ExactStore.nodup_upsert written h
      · exact h
  | graph g =>
      simp only [VectorStore.upsert]
      split
      · trivial
      · trivial
  | faulty e writes outages =>
      simp only [VectorStore.upsert]
      split
      · exact h
      · split
        · rename_i after written
          exact ExactStore.nodup_upsert written h
        · exact h

theorem Distinct.delete {s : VectorStore} (h : s.Distinct) (id : SymbolId) :
    (s.delete id).2.Distinct := by
  cases s with
  | exact | faulty => exact Keyed.nodup_erase h id
  | graph => trivial

theorem Distinct.failWrites {s : VectorStore} (h : s.Distinct) (numbers : List Nat) :
    (s.failWrites numbers).Distinct := by
  cases s with
  | exact | graph | faulty => exact h

theorem distinct_isEmpty {s : VectorStore} (empty : s.isEmpty = true) : s.Distinct := by
  have none {records : Keyed SymbolId Record} (length : (records.length == 0) = true) :
      (Keyed.keys records).Nodup := by
    rw [List.length_eq_zero_iff.mp (beq_iff_eq.mp length)]
    exact List.nodup_nil
  cases s with
  | exact | faulty => exact none empty
  | graph => trivial

theorem search_ok {s : VectorStore} {query : Vector} {k : Nat} {r : Restriction}
    {found : List Candidate} (searched : s.search query k r = .ok found) (distinct : s.Distinct)
    (own : s.OwnIds) {c : Candidate} (inside : c ∈ found) :
    r.admits c.metadata = true ∧ ∃ record, c.StandsFor s query record := by
  have exactly {e : ExactStore} (searched : e.search query k r = .ok found)
      (distinct : (Keyed.keys e.records).Nodup)
      (own : ∀ id record, e.get? id = some record → record.id = id) :
      r.admits c.metadata = true ∧ ∃ record, e.get? c.id = some record ∧
        c.metadata = record.metadata ∧ c.similarity = query.cosine record.vector := by
    obtain ⟨record, held, same, admitted⟩ := ExactStore.search_ok searched distinct own inside
    rw [same] at held ⊢
    exact ⟨admitted, record, held, rfl, rfl⟩
  cases s with
  | exact e =>
      obtain ⟨admitted, record, held, metadata, similarity⟩ := exactly searched distinct own
      exact ⟨admitted, record, held, metadata, fun _ => similarity⟩
  | graph g =>
      obtain ⟨record, held, metadata, admitted⟩ := GraphStore.search_ok searched inside
      exact ⟨metadata.symm ▸ admitted, record, held, metadata, nofun⟩
  | faulty e writes outages =>
      obtain ⟨admitted, record, held, metadata, similarity⟩ := exactly searched distinct own
      exact ⟨admitted, record, held, metadata, fun _ => similarity⟩

/-- A search fails for a query that is not valid only. -/
theorem search_total {s : VectorStore} {query : Vector}
    (valid : query.validate s.dimension = .ok ()) (k : Nat) (r : Restriction) :
    ∃ found, s.search query k r = .ok found := by
  cases s with
  | exact e =>
      have valid : query.validate e.dimension = .ok () := valid
      simp only [search, ExactStore.search, valid, bind, Except.bind, pure, Except.pure]
      exact ⟨_, rfl⟩
  | graph g =>
      have valid : query.validate g.dimension = .ok () := valid
      simp only [search, GraphStore.search, valid, bind, Except.bind, pure, Except.pure]
      split
      · exact ⟨_, rfl⟩
      · exact ⟨_, rfl⟩
  | faulty e writes outages =>
      have valid : query.validate e.dimension = .ok () := valid
      simp only [search, ExactStore.search, valid, bind, Except.bind, pure, Except.pure]
      exact ⟨_, rfl⟩

end VectorStore

namespace Searcher

section

variable {s : Searcher} {good : Candidate → Prop} {p : Metadata → Bool} {k factor : Nat}

theorem fetchRounds_ok
    (finds : ∀ {n found}, s.search n none = .ok found → ∀ c ∈ found, good c)
    {rounds fetch : Nat} {before last : FetchRound}
    (searched : s.fetchRounds factor k p rounds fetch before = .ok last)
    (fine : ∀ c ∈ before.kept, p c.metadata = true ∧ good c) :
    ∀ c ∈ last.kept, p c.metadata = true ∧ good c := by
  induction rounds generalizing fetch before with
  | zero =>
      cases searched
      exact fine
  | succ rounds ih =>
      rw [fetchRounds] at searched
      cases once : s.search fetch none with
      | error cause => simp [once, bind, Except.bind] at searched
      | ok candidates =>
          simp only [once, bind, Except.bind] at searched
          have fresh : ∀ c ∈ candidates.filter (fun c => p c.metadata),
              p c.metadata = true ∧ good c := by
            intro c inside
            obtain ⟨listed, passes⟩ := List.mem_filter.mp inside
            exact ⟨passes, finds once c listed⟩
          split at searched
          · cases searched
            exact fresh
          · exact ih searched fresh

theorem fetchRounds_total (total : ∀ n, ∃ found, s.search n none = .ok found)
    (rounds fetch : Nat) (before : FetchRound) :
    ∃ last, s.fetchRounds factor k p rounds fetch before = .ok last := by
  induction rounds generalizing fetch before with
  | zero => exact ⟨before, rfl⟩
  | succ rounds ih =>
      obtain ⟨candidates, once⟩ := total fetch
      simp only [fetchRounds, once, bind, Except.bind]
      split
      · exact ⟨_, rfl⟩
      · exact ih _ _

end

end Searcher

namespace VectorIndex

section

variable {i : VectorIndex} {query : Vector} {k : Nat} {found : List Candidate}

/-- Every candidate that a search finds has a record that passes the restriction. -/
theorem filteredSearch_ok {r : Restriction} (distinct : i.store.Distinct) (own : i.store.OwnIds)
    (searched : i.filteredSearch query k r = .ok found) :
    ∀ c ∈ found, r.admits c.metadata = true ∧ ∃ record, c.StandsFor i.store query record := by
  unfold filteredSearch Searcher.filteredSearch at searched
  split at searched
  · cases searched
    exact fun c inside => absurd inside List.not_mem_nil
  · split at searched
    · exact fun c inside => VectorStore.search_ok searched distinct own inside
    · rename_i p
      split at searched
      · exact fun c inside => VectorStore.search_ok searched distinct own inside
      · cases rounds : (i.store.searcher query).overfetch i.overfetchFactor i.maxRounds k p with
        | error cause => simp [rounds, bind, Except.bind] at searched
        | ok last =>
            simp only [rounds, bind, Except.bind, pure, Except.pure, Except.ok.injEq] at searched
            intro c inside
            rw [← searched] at inside
            exact Searcher.fetchRounds_ok
              (fun once c listed => (VectorStore.search_ok once distinct own listed).2) rounds
              (fun c none => absurd none List.not_mem_nil) c (Candidate.best_subset _ _ inside)

theorem filteredSearch_total (valid : query.validate i.store.dimension = .ok ()) (k : Nat)
    (r : Restriction) : ∃ found, i.filteredSearch query k r = .ok found := by
  unfold filteredSearch Searcher.filteredSearch
  split
  · exact ⟨[], rfl⟩
  · split
    · exact VectorStore.search_total valid k none
    · rename_i p
      split
      · exact VectorStore.search_total valid k (some p)
      · obtain ⟨last, rounds⟩ : ∃ last, (i.store.searcher query).overfetch i.overfetchFactor
            i.maxRounds k p = .ok last :=
          Searcher.fetchRounds_total (fun n => VectorStore.search_total valid n none) _ _ _
        simp only [rounds, bind, Except.bind, pure, Except.pure]
        exact ⟨_, rfl⟩

end

end VectorIndex

end CodeSearch
