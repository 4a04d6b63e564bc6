import CodeSearch.Proofs.Sorting
import CodeSearch.Proofs.Vector.Nearest

/-! # Asking for more than is wanted

A store that does not apply a restriction itself is asked for more candidates than are wanted, and
for still more as long as too few of them pass. If its plain search gives the exact first of its
records, what is kept of any round is where the list of all records that pass begins. So whenever
the rounds end, no record is passed over for a worse one, and nothing is missing after a round that
asked for the whole store. A store that applies the restriction itself misses nothing.
-/

namespace CodeSearch

namespace Candidate

/-- The candidates that satisfy a predicate, best first. -/
def matching (p : Metadata → Bool) (candidates : List Candidate) : List Candidate :=
  (candidates.mergeSort le).filter fun c => p c.metadata

theorem best_of_sorted {candidates : List Candidate}
    (sorted : candidates.Pairwise fun a b => le a b = true) (k : Nat) :
    best k candidates = candidates.take k := by
  rw [best, List.mergeSort_of_pairwise sorted]

theorem best_filter (p : Metadata → Bool) (candidates : List Candidate) (k : Nat) :
    best k (candidates.filter fun c => p c.metadata) = (matching p candidates).take k := by
  rw [best, matching, filter_mergeSort le_trans le_total]

theorem length_matching (p : Metadata → Bool) (candidates : List Candidate) :
    (matching p candidates).length = (candidates.filter fun c => p c.metadata).length :=
  ((List.mergeSort_perm candidates le).filter _).length_eq

/-- Similarities that differ make every cut clear. -/
theorem clearCut_of_nodup {candidates : List Candidate}
    (differ : (candidates.map (·.similarity)).Nodup) (k : Nat) : ClearCut k candidates := by
  intro c hc out d hd same
  exact out (List.inj_on_of_nodup_map differ hc (best_subset _ _ hd) same ▸ hd)

end Candidate

/-! ## Rounds -/

namespace Searcher

/-- A plain search finds the exact first of some records, however many are asked for. -/
structure Exact (s : Searcher) (records : List Candidate) : Prop where
  size : s.size = records.length
  search : ∀ n, s.search n none = .ok (Candidate.best n records)

/-- What was kept of a round is what passes among the best records. -/
def Kept (p : Metadata → Bool) (records : List Candidate) (round : FetchRound) : Prop :=
  round.kept = ((records.mergeSort Candidate.le).take round.asked).filter fun c => p c.metadata

section

variable {s : Searcher} {records : List Candidate} {p : Metadata → Bool} {k factor : Nat}

theorem Exact.fetchRounds (h : s.Exact records) (factor k rounds fetch : Nat)
    {before : FetchRound} (kept : Kept p records before) : ∃ last,
      s.fetchRounds factor k p rounds fetch before = .ok last ∧ Kept p records last := by
  induction rounds generalizing fetch before with
  | zero => exact ⟨before, rfl, kept⟩
  | succ rounds ih =>
      simp only [Searcher.fetchRounds, h.search, bind, Except.bind]
      split
      · exact ⟨_, rfl, rfl⟩
      · exact ih _ rfl

/-- A round is the last one if it finds enough or asks for all, else there are further rounds. -/
theorem Exact.fetchRounds_cases (h : s.Exact records) {rounds fetch : Nat} (few : fetch ≤ s.size)
    {before last : FetchRound}
    (searched : s.fetchRounds factor k p (rounds + 1) fetch before = .ok last) :
    last.asked = fetch ∧ (k ≤ last.kept.length ∨ s.size ≤ fetch) ∨
      fetch < s.size ∧ ∃ round : FetchRound, round.asked = fetch ∧
        s.fetchRounds factor k p rounds (min (fetch * factor) s.size) round = .ok last := by
  have found : (Candidate.best fetch records).length = fetch := by
    rw [Candidate.best, List.length_take, List.length_mergeSort, ← h.size, min_eq_left few]
  simp only [Searcher.fetchRounds, h.search, bind, Except.bind, found, Bool.or_eq_true,
    decide_eq_true_eq, lt_irrefl, false_or] at searched
  split at searched
  · rename_i done
    cases searched
    exact .inl ⟨rfl, done⟩
  · rename_i more
    exact .inr ⟨Nat.lt_of_not_le fun all => more (.inr all), _, rfl, searched⟩

/-- The rounds end early only with enough candidates, or when there are no more. -/
theorem Exact.fetchRounds_asked (h : s.Exact records) {rounds reach : Nat}
    {before last : FetchRound}
    (searched : s.fetchRounds factor k p (rounds + 1) (min reach s.size) before = .ok last) :
    k ≤ last.kept.length ∨ s.size ≤ last.asked ∨ last.asked = reach * factor ^ rounds := by
  induction rounds generalizing reach before with
  | zero =>
      rcases h.fetchRounds_cases (min_le_right _ _) searched with
        ⟨asked, enough | all⟩ | ⟨less, round, asked, next⟩
      · exact .inl enough
      · exact .inr (.inl (asked ▸ all))
      · cases next
        refine .inr (.inr ?_)
        rw [asked, pow_zero, mul_one]
        omega
  | succ rounds ih =>
      rcases h.fetchRounds_cases (min_le_right _ _) searched with
        ⟨asked, enough | all⟩ | ⟨less, round, -, next⟩
      · exact .inl enough
      · exact .inr (.inl (asked ▸ all))
      · have whole : min reach s.size = reach := by omega
        rw [whole] at next
        rw [pow_succ', ← mul_assoc]
        exact ih next

/-- A filtered search without pushdown keeps where the list of all that passes begins. -/
theorem Exact.filteredSearch (h : s.Exact records) (p : Metadata → Bool)
    (plain : s.pushesDown = false) (wanted : 0 < k) (factor rounds : Nat) : ∃ last,
      s.overfetch factor rounds k p = .ok last ∧ Kept p records last ∧
      s.filteredSearch factor rounds k (some p) = .ok (last.kept.take k) := by
  obtain ⟨last, fetched, kept⟩ :=
    h.fetchRounds factor k rounds (min (k * factor) s.size) (show Kept p records ⟨0, []⟩ from rfl)
  refine ⟨last, fetched, kept, ?_⟩
  have sorted : last.kept.Pairwise fun a b => Candidate.le a b = true := by
    rw [kept]
    exact (Candidate.best_sorted last.asked records).filter _
  simp only [Searcher.filteredSearch, Nat.ne_of_gt wanted, if_false, plain, overfetch, fetched,
    bind, Except.bind, pure, Except.pure, Bool.false_eq_true, Candidate.best_of_sorted sorted]

end

end Searcher

/-- All records of an exact store as candidates for a query. -/
def ExactStore.scored (e : ExactStore) (query : Vector) : List Candidate :=
  (Keyed.values e.records).map fun r => ⟨r.id, query.cosine r.vector, r.metadata⟩

/-- A store that looks at every record finds all that pass. -/
theorem ExactStore.filteredSearch (e : ExactStore) {query : Vector}
    (valid : query.validate e.dimension = .ok ()) (p : Metadata → Bool) {k : Nat} (wanted : 0 < k)
    (factor rounds : Nat) :
    ((VectorStore.exact e).searcher query).filteredSearch factor rounds k (some p) =
      .ok ((Candidate.matching p (e.scored query)).take k) := by
  have admitted : ((Keyed.values e.records).filter fun r => p r.metadata).map
      (fun r => (⟨r.id, query.cosine r.vector, r.metadata⟩ : Candidate)) =
        (e.scored query).filter fun c => p c.metadata := by
    rw [scored, List.filter_map]
    rfl
  rw [← Candidate.best_filter, ← admitted]
  simp only [Searcher.filteredSearch, Nat.ne_of_gt wanted, if_false, VectorStore.searcher,
    VectorStore.pushesDown, if_true, VectorStore.search, ExactStore.search, valid, bind,
    Except.bind, pure, Except.pure, Restriction.admits]

/-- Whatever predicate is asked for, a filtered search finds records with which the list of all that
    pass begins. Without pushdown, in a store whose plain search is exact, these are `k` or all once
    a round asked for the whole store, and there are fewer than `k` only after such a round or the
    last one of all. With pushdown there are `k` whenever so many pass. -/
theorem filteredSearch_matching (p : Metadata → Bool) {k factor rounds : Nat} (wanted : 0 < k)
    (often : 0 < rounds) :
    (∀ (s : Searcher) (records : List Candidate), s.pushesDown = false → s.Exact records →
      ∃ last found, s.overfetch factor rounds k p = .ok last ∧
        s.filteredSearch factor rounds k (some p) = .ok found ∧
        found <+: Candidate.matching p records ∧ found.length ≤ k ∧
        (s.size ≤ last.asked → found.length = k ∨ found = Candidate.matching p records) ∧
        (found.length < k → s.size ≤ last.asked ∨ last.asked = k * factor ^ rounds)) ∧
    ∀ (e : ExactStore) (query : Vector), query.validate e.dimension = .ok () →
      ∃ found, ((VectorStore.exact e).searcher query).filteredSearch factor rounds k (some p) =
          .ok found ∧
        found <+: Candidate.matching p (e.scored query) ∧
        found.length = min k ((Keyed.values e.records).filter fun r => p r.metadata).length := by
  constructor
  · intro s records plain exact
    obtain ⟨last, fetched, kept, searched⟩ := exact.filteredSearch p plain wanted factor rounds
    refine ⟨last, last.kept.take k, fetched, searched, ?_, List.length_take_le _ _, ?_, ?_⟩
    · rw [kept]
      exact (List.take_prefix _ _).trans ((List.take_prefix _ _).filter _)
    · intro all
      have whole : last.kept = Candidate.matching p records := by
        rw [kept, List.take_of_length_le, Candidate.matching]
        rwa [List.length_mergeSort, ← exact.size]
      rw [whole, List.length_take]
      rcases Nat.le_total k (Candidate.matching p records).length with enough | few
      · exact .inl (min_eq_left enough)
      · exact .inr (List.take_of_length_le few)
    · intro short
      obtain ⟨rest, rfl⟩ : ∃ rest, rounds = rest + 1 := ⟨rounds - 1, by omega⟩
      rcases exact.fetchRounds_asked fetched with enough | asked
      · rw [List.length_take] at short
        omega
      · rwa [pow_succ', ← mul_assoc]
  · intro e query valid
    refine ⟨_, e.filteredSearch valid p wanted factor rounds, List.take_prefix _ _, ?_⟩
    rw [List.length_take, Candidate.length_matching, ExactStore.scored, List.filter_map,
      List.length_map]
    rfl

/-! ## A graph store -/

namespace GraphStore

/-- A graph store whose records are not equally similar to a query has an exact search for it. -/
theorem Sound.exact {s : GraphStore} (h : s.Sound) {query : Vector}
    (valid : query.validate s.dimension = .ok ())
    (numbers : ∀ r, s.get? r.id = some r → (query.cosineDistance r.vector).IsNumber)
    (differ : ((s.scored query).map (·.similarity)).Nodup) :
    ((VectorStore.graph s).searcher query).Exact (s.scored query) := by
  constructor
  case size =>
    rw [scored, List.length_map, Keyed.values, List.length_map]
    rfl
  case search =>
    intro n
    obtain ⟨found, searched, finds⟩ := h.search valid n numbers
    rw [← finds.clear (Candidate.clearCut_of_nodup differ n)]
    exact searched

/-- Three records, of which the second nearest to the first axis is written in Rust. -/
def spread : GraphStore :=
  (ofParams 2 {}).applyAll
    [.upsert ⟨"a", [1, 0], default⟩,
      .upsert ⟨"b", [1, 1], { (default : Metadata) with language := .rust }⟩,
      .upsert ⟨"c", [0, 1], default⟩]

theorem spread_exact :
    ((VectorStore.graph spread).searcher [1, 0]).Exact (spread.scored [1, 0]) := by
  have sound : spread.Sound := (Sound.ofParams 2 {}).applyAll _
  have numbers : ∀ r ∈ Keyed.values spread.records,
      (Vector.cosineDistance [1, 0] r.vector).IsNumber := by
    unfold Score.IsNumber
    decide +kernel
  exact sound.exact (by decide +kernel)
    (fun r held => numbers r ((Keyed.mem_values sound.distinct).mpr ⟨r.id, held⟩))
    (by decide +kernel)

/-- Among two times as many candidates as are wanted is the one that passes. -/
theorem spread_matching :
    let rust := fun m : Metadata => m.language == .rust
    let s := (VectorStore.graph spread).searcher [1, 0]
    let e : ExactStore := { dimension := 2, records := spread.records }
    (0 < 1 ∧ 0 < 3 ∧ s.pushesDown = false ∧ s.Exact (spread.scored [1, 0]) ∧
      ∃ last found, s.overfetch 2 3 1 rust = .ok last ∧
        s.filteredSearch 2 3 1 (some rust) = .ok found ∧
        found <+: Candidate.matching rust (spread.scored [1, 0]) ∧ found.length ≤ 1 ∧
        (s.size ≤ last.asked →
          found.length = 1 ∨ found = Candidate.matching rust (spread.scored [1, 0])) ∧
        (found.length < 1 → s.size ≤ last.asked ∨ last.asked = 1 * 2 ^ 3)) ∧
      Vector.validate [1, 0] e.dimension = .ok () ∧
      ∃ found, ((VectorStore.exact e).searcher [1, 0]).filteredSearch 2 3 1 (some rust) =
          .ok found ∧
        found <+: Candidate.matching rust (e.scored [1, 0]) ∧
        found.length = min 1 ((Keyed.values e.records).filter fun r => rust r.metadata).length := by
  intro rust s e
  have valid : Vector.validate [1, 0] e.dimension = .ok () := by decide +kernel
  refine ⟨⟨by decide, by decide, rfl, spread_exact, ?_⟩, valid, ?_⟩
  · exact (filteredSearch_matching rust (by decide) (by decide)).1 s _ rfl spread_exact
  · exact (filteredSearch_matching rust (by decide) (by decide)).2 e [1, 0] valid

end GraphStore

end CodeSearch
