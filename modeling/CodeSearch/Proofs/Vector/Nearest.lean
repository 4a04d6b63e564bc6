import CodeSearch.Proofs.Rounding
import CodeSearch.Proofs.Vector.Runs
import CodeSearch.Proofs.Vector.Search

/-! # The nearest records

A search in the graph asks for so many vectors that the tombstones among them take no place away
from a record. So it finds records that are as similar as the best ones, whatever was written and
dropped before. Which of several equally similar records are among them is decided by their numbers
in the graph, before the candidates are ordered by id. When no record that is left out is as similar
as one of the best, the search finds just these, also after the graph is built anew.
-/

namespace CodeSearch

deriving instance DecidableEq for Record, Candidate

namespace Candidate

theorem le_total (a b : Candidate) : (le a b || le b a) = true :=
  Score.bestFirst_total _ _

theorem le_trans (a b c : Candidate) (first : le a b = true) (second : le b c = true) :
    le a c = true :=
  Score.bestFirst_trans _ _ _ first second

/-- Candidates in a list whose similarities do not rise. -/
def Falling (candidates : List Candidate) : Prop :=
  candidates.Pairwise fun a b => b.similarity.rank ≤ a.similarity.rank

theorem falling_mergeSort (candidates : List Candidate) : Falling (candidates.mergeSort le) := by
  refine (List.pairwise_mergeSort le_trans le_total candidates).imp fun {a b} first => ?_
  rcases Score.bestFirst_iff.mp first with more | ⟨same, -⟩
  · exact more.le
  · exact same.ge

/-- Two lists of the same candidates have the same similarities if neither rises. -/
theorem Falling.similarities {a b : List Candidate} (ha : Falling a) (hb : Falling b)
    (perm : a.Perm b) : a.map (·.similarity) = b.map (·.similarity) :=
  (perm.map _).eq_of_pairwise
    (fun _ _ _ _ above below => Rounding.rank_injective (le_antisymm below above))
    (List.pairwise_map.mpr ha) (List.pairwise_map.mpr hb)

theorem best_sorted (k : Nat) (candidates : List Candidate) :
    (best k candidates).Pairwise fun a b => le a b = true :=
  (List.pairwise_mergeSort le_trans le_total candidates).sublist (List.take_sublist _ _)

theorem nodup_best {candidates : List Candidate} (nodup : candidates.Nodup) (k : Nat) :
    (best k candidates).Nodup :=
  ((List.mergeSort_perm candidates le).nodup_iff.mpr nodup).sublist (List.take_sublist _ _)

theorem best_similarities {candidates falling : List Candidate} (sorted : Falling falling)
    (perm : falling.Perm candidates) (k : Nat) :
    (best k candidates).map (·.similarity) = (falling.map (·.similarity)).take k := by
  have same := sorted.similarities (falling_mergeSort candidates)
    (perm.trans (List.mergeSort_perm _ _).symm)
  rw [best, List.map_take, same]

/-- No candidate that is left out is as similar as one of the best. -/
def ClearCut (k : Nat) (candidates : List Candidate) : Prop :=
  ∀ c ∈ candidates, c ∉ best k candidates → ∀ d ∈ best k candidates, c.similarity ≠ d.similarity

/-- With a clear cut, candidates as similar as the best ones are these. -/
theorem best_eq_of_clearCut {k : Nat} {found candidates : List Candidate}
    (clear : ClearCut k candidates) (distinct : (candidates.map (·.id)).Nodup)
    (subset : found ⊆ candidates) (nodup : found.Nodup)
    (similar : (best k found).map (·.similarity) = (best k candidates).map (·.similarity)) :
    best k found = best k candidates := by
  have inside : best k found ⊆ best k candidates := by
    intro c hc
    by_contra out
    have known : c.similarity ∈ (best k candidates).map (·.similarity) :=
      similar ▸ List.mem_map_of_mem hc
    obtain ⟨d, hd, same⟩ := List.mem_map.mp known
    exact clear c (subset (best_subset _ _ hc)) out d hd same.symm
  have lengths : (best k found).length = (best k candidates).length := by
    have same := congrArg List.length similar
    rwa [List.length_map, List.length_map] at same
  have perm : (best k found).Perm (best k candidates) :=
    (List.subperm_of_subset (nodup_best nodup k) inside).perm_of_length_le lengths.ge
  refine perm.eq_of_pairwise (fun a b ha hb first second => ?_) (best_sorted k found)
    (best_sorted k candidates)
  exact List.inj_on_of_nodup_map distinct (subset (best_subset _ _ ha)) (best_subset _ _ hb)
    (Score.bestFirst_antisymm first second)

end Candidate

namespace GraphStore

/-- All records as candidates for a query. -/
def scored (s : GraphStore) (query : Vector) : List Candidate :=
  (Keyed.values s.records).map fun r =>
    ⟨r.id, 1 - query.cosineDistance r.vector, r.metadata⟩

/-- All numbers of the graph with the distances of their vectors, nearest first. -/
def ranked (s : GraphStore) (query : Vector) : List (Nat × Score) :=
  (s.nodes.map fun n => (n.number, query.cosineDistance n.vector)).mergeSort
    fun a b => a.2.rank ≤ b.2.rank

/-- The candidates of all vectors of the graph, nearest first. -/
def lineup (s : GraphStore) (query : Vector) : List Candidate :=
  (s.ranked query).filterMap fun e => s.candidate? none e.1 e.2

section

variable {s : GraphStore}

theorem candidate?_dead {number : Nat} (dead : number ∈ s.deleted) (distance : Score) :
    s.candidate? none number distance = none := by
  have contained : s.deleted.contains number = true := List.contains_iff_mem.mpr dead
  rw [candidate?, if_pos contained]
  rfl

/-- A vector of the graph is a tombstone, or that of a record. -/
theorem Sound.candidate? (h : s.Sound) {n : GraphNode} (hn : n ∈ s.nodes) :
    n.number ∈ s.deleted ∨ ∃ r, s.get? r.id = some r ∧ r.vector = n.vector ∧
      Keyed.get? s.idOf n.number = some r.id ∧
      ∀ distance, s.candidate? none n.number distance = some ⟨r.id, 1 - distance, r.metadata⟩ := by
  have given : n.number < s.nextNumber := by
    rw [← List.mem_range, ← h.coherent.numbered]
    exact List.mem_map_of_mem hn
  rcases (h.coherent.given n.number).mp given with ⟨id, live⟩ | dead
  · obtain ⟨r, held, same⟩ := h.coherent.vectors n hn id live
    have own : r.id = id := h.own id r held
    subst own
    have alive : n.number ∉ s.deleted := by
      intro dead
      rw [h.coherent.apart n.number dead] at live
      cases live
    refine .inr ⟨r, held, same, live, fun distance => ?_⟩
    simp [GraphStore.candidate?, alive, live, held, Restriction.admits]
  · exact .inl dead

theorem Sound.mem_scored (h : s.Sound) {query : Vector} {c : Candidate} :
    c ∈ s.scored query ↔ ∃ r, s.get? r.id = some r ∧
      c = ⟨r.id, 1 - query.cosineDistance r.vector, r.metadata⟩ := by
  simp only [scored, List.mem_map, Keyed.mem_values h.distinct]
  constructor
  · rintro ⟨r, ⟨id, held⟩, rfl⟩
    exact ⟨r, (h.own id r held).symm ▸ held, rfl⟩
  · rintro ⟨r, held, rfl⟩
    exact ⟨r, ⟨r.id, held⟩, rfl⟩

theorem Sound.scored_ids (h : s.Sound) (query : Vector) :
    ((s.scored query).map (·.id)).Nodup := by
  have ids : (s.scored query).map (·.id) = Keyed.keys s.records := by
    rw [← h.ids, scored, List.map_map]
    rfl
  exact ids ▸ h.distinct

/-- The candidates of the vectors are those of the records. -/
theorem Sound.candidates_iff (h : s.Sound) (query : Vector) (c : Candidate) :
    (∃ n ∈ s.nodes, s.candidate? none n.number (query.cosineDistance n.vector) = some c) ↔
      c ∈ s.scored query := by
  rw [h.mem_scored]
  constructor
  · rintro ⟨n, hn, known⟩
    rcases h.candidate? hn with dead | ⟨r, held, same, -, alive⟩
    · rw [candidate?_dead dead] at known
      cases known
    · rw [alive, ← same] at known
      exact ⟨r, held, (Option.some.inj known).symm⟩
  · rintro ⟨r, held, rfl⟩
    obtain ⟨number, numbered⟩ := (h.coherent.live r.id).mpr ⟨r.vector, r, held, rfl⟩
    have back := (h.coherent.inverse r.id number).mp numbered
    have given : number ∈ s.nodes.map (·.number) := by
      rw [h.coherent.numbered, List.mem_range]
      exact (h.coherent.given number).mpr (.inl ⟨r.id, back⟩)
    obtain ⟨n, hn, rfl⟩ := List.mem_map.mp given
    rcases h.candidate? hn with dead | ⟨other, heldOther, same, backOther, alive⟩
    · rw [h.coherent.apart _ dead] at back
      cases back
    · rw [back] at backOther
      rw [← Option.some.inj backOther, held] at heldOther
      cases heldOther
      exact ⟨n, hn, by rw [alive, same]⟩

/-- Vectors of different numbers are those of different records. -/
theorem Sound.number_inj (h : s.Sound) {n n' : GraphNode} (hn : n ∈ s.nodes) (hn' : n' ∈ s.nodes)
    {c c' : Candidate} {d d' : Score} (known : s.candidate? none n.number d = some c)
    (known' : s.candidate? none n'.number d' = some c') (same : c.id = c'.id) :
    n.number = n'.number := by
  have numberOf {n : GraphNode} (hn : n ∈ s.nodes) {c : Candidate} {d : Score}
      (known : s.candidate? none n.number d = some c) :
      Keyed.get? s.numberOf c.id = some n.number := by
    rcases h.candidate? hn with dead | ⟨r, -, -, back, alive⟩
    · rw [candidate?_dead dead] at known
      cases known
    · rw [alive] at known
      cases known
      exact (h.coherent.inverse _ _).mpr back
  have first := numberOf hn known
  rw [same, numberOf hn' known'] at first
  exact (Option.some.inj first).symm

theorem Sound.lineup_perm (h : s.Sound) (query : Vector) :
    (s.lineup query).Perm (s.scored query) := by
  have perm := (List.mergeSort_perm (s.nodes.map fun n => (n.number, query.cosineDistance n.vector))
    fun a b => a.2.rank ≤ b.2.rank).filterMap fun e => s.candidate? none e.1 e.2
  rw [List.filterMap_map] at perm
  refine perm.trans ?_
  have numbers : (s.nodes.map (·.number)).Nodup := h.coherent.numbered ▸ List.nodup_range
  have apart : (s.nodes.filterMap fun n =>
      s.candidate? none n.number (query.cosineDistance n.vector)).Nodup := by
    refine List.pairwise_filterMap.mpr ?_
    refine (List.pairwise_map.mp numbers).imp_of_mem ?_
    rintro n n' hn hn' different c known c' known' rfl
    exact different (h.number_inj hn hn' known known' rfl)
  refine (List.perm_ext_iff_of_nodup apart (h.scored_ids query).of_map).mpr fun c => ?_
  rw [List.mem_filterMap, h.candidates_iff]

/-- A number of the graph with the distance of its vector is a tombstone, or stands for a record. -/
theorem Sound.ranked (h : s.Sound) {query : Vector} {e : Nat × Score} (he : e ∈ s.ranked query) :
    e.1 ∈ s.deleted ∨ ∃ r, s.get? r.id = some r ∧ e.2 = query.cosineDistance r.vector ∧
      s.candidate? none e.1 e.2 = some ⟨r.id, 1 - e.2, r.metadata⟩ := by
  obtain ⟨n, hn, rfl⟩ := List.mem_map.mp (List.mem_mergeSort.mp he)
  rcases h.candidate? hn with dead | ⟨r, held, same, -, alive⟩
  · exact .inl dead
  · exact .inr ⟨r, held, congrArg query.cosineDistance same.symm, alive _⟩

theorem ranked_sorted (s : GraphStore) (query : Vector) :
    (s.ranked query).Pairwise fun a b => a.2.rank ≤ b.2.rank := by
  have trans (a b c : Nat × Score) (first : decide (a.2.rank ≤ b.2.rank) = true)
      (second : decide (b.2.rank ≤ c.2.rank) = true) : decide (a.2.rank ≤ c.2.rank) = true := by
    rw [decide_eq_true_eq] at *
    exact first.trans second
  have total (a b : Nat × Score) :
      (decide (a.2.rank ≤ b.2.rank) || decide (b.2.rank ≤ a.2.rank)) = true := by
    rw [Bool.or_eq_true, decide_eq_true_eq, decide_eq_true_eq]
    exact Int.le_total _ _
  exact (List.pairwise_mergeSort trans total _).imp of_decide_eq_true

/-- The nearer a vector is, the more similar is its record, or as similar. -/
theorem Sound.lineup_falling (h : s.Sound) {query : Vector}
    (numbers : ∀ r, s.get? r.id = some r → (query.cosineDistance r.vector).IsNumber) :
    Candidate.Falling (s.lineup query) := by
  refine List.pairwise_filterMap.mpr ((s.ranked_sorted query).imp_of_mem ?_)
  intro e e' he he' nearer c known c' known'
  have of_candidate {e : Nat × Score} (he : e ∈ s.ranked query) {c : Candidate}
      (known : s.candidate? none e.1 e.2 = some c) : e.2.IsNumber ∧ c.similarity = 1 - e.2 := by
    rcases h.ranked he with dead | ⟨r, held, distance, alive⟩
    · rw [candidate?_dead dead] at known
      cases known
    · rw [alive] at known
      cases known
      exact ⟨distance ▸ numbers r held, rfl⟩
  obtain ⟨number, similarity⟩ := of_candidate he known
  obtain ⟨number', similarity'⟩ := of_candidate he' known'
  rw [similarity, similarity']
  exact Rounding.one_sub_antitone number number' nearer

/-- The candidates among as many vectors as a search looks at. -/
def reached (s : GraphStore) (query : Vector) (k : Nat) : List Candidate :=
  ((s.ranked query).take (min (k + s.tombstones) s.nextNumber)).filterMap
    fun e => s.candidate? none e.1 e.2

theorem Sound.ranked_numbers (h : s.Sound) (query : Vector) :
    ((s.ranked query).map (·.1)).Perm (List.range s.nextNumber) := by
  have perm := (List.mergeSort_perm (s.nodes.map fun n => (n.number, query.cosineDistance n.vector))
    fun a b => a.2.rank ≤ b.2.rank).map (·.1)
  rw [List.map_map] at perm
  exact h.coherent.numbered ▸ perm

/-- Among the nearest vectors are no more tombstones than there are at all. -/
theorem Sound.missing_le (h : s.Sound) (query : Vector) (want : Nat) :
    ((s.ranked query).take want).countP
      (fun e => ¬(s.candidate? none e.1 e.2).isSome) ≤ s.tombstones := by
  have numbers : ((s.ranked query).map (·.1)).Nodup :=
    (h.ranked_numbers query).nodup_iff.mpr List.nodup_range
  rw [List.countP_eq_length_filter, ← List.length_map (·.1)]
  refine (List.subperm_of_subset ?_ fun number missing => ?_).length_le
  · exact numbers.sublist ((List.filter_sublist.trans (List.take_sublist _ _)).map _)
  · obtain ⟨e, inside, rfl⟩ := List.mem_map.mp missing
    obtain ⟨near, unknown⟩ := List.mem_filter.mp inside
    rcases h.ranked (List.mem_of_mem_take near) with dead | ⟨r, -, -, alive⟩
    · exact dead
    · rw [alive] at unknown
      cases unknown

/-- Tombstones take no place away from a record. -/
theorem Sound.reached_enough (h : s.Sound) (query : Vector) (k : Nat) :
    min k (s.lineup query).length ≤ (s.reached query k).length := by
  have all : (s.ranked query).length = s.nextNumber := by
    have numbers := (h.ranked_numbers query).length_eq
    rwa [List.length_map, List.length_range] at numbers
  rcases Nat.le_total s.nextNumber (k + s.tombstones) with few | many
  · have whole : s.reached query k = s.lineup query := by
      rw [reached, min_eq_right few, ← all, List.take_length, lineup]
    rw [whole]
    exact min_le_right _ _
  · have missing := h.missing_le query (k + s.tombstones)
    have parts : ((s.ranked query).take (k + s.tombstones)).length = _ :=
      List.length_eq_countP_add_countP fun e => (s.candidate? none e.1 e.2).isSome
    rw [List.length_take, all, min_eq_left many] at parts
    rw [reached, min_eq_left many, List.length_filterMap_eq_countP]
    omega

theorem lineup_split (s : GraphStore) (query : Vector) (k : Nat) :
    ∃ rest, s.lineup query = s.reached query k ++ rest := by
  refine ⟨((s.ranked query).drop (min (k + s.tombstones) s.nextNumber)).filterMap
    fun e => s.candidate? none e.1 e.2, ?_⟩
  rw [reached, ← List.filterMap_append, List.take_append_drop, lineup]

/-- A search finds the best of the candidates it reaches. -/
theorem Sound.search_eq (h : s.Sound) {query : Vector}
    (valid : query.validate s.dimension = .ok ()) (k : Nat) :
    s.search query k none = .ok (Candidate.best k (s.reached query k)) := by
  unfold search
  simp only [valid, bind, Except.bind]
  split_ifs with trivial
  · rcases Bool.or_eq_true_iff.mp trivial with none | zero
    · have empty : (s.scored query).length = 0 := by
        rw [scored, List.isEmpty_iff.mp none]
        rfl
      obtain ⟨rest, parts⟩ := s.lineup_split query k
      have unreached : (s.reached query k).length = 0 := by
        have lengths := (h.lineup_perm query).length_eq
        rw [parts, List.length_append, empty] at lengths
        omega
      rw [List.length_eq_zero_iff.mp unreached, Candidate.best, List.mergeSort_nil, List.take_nil]
      rfl
    · rw [of_decide_eq_true zero]
      rfl
  · rfl

/-- What a search finds: records as similar as the best ones, each of them once, best first. -/
structure Finds (s : GraphStore) (query : Vector) (k : Nat) (found : List Candidate) : Prop where
  live : found ⊆ s.scored query
  once : found.Nodup
  sorted : found.Pairwise fun a b => a.le b = true
  length : found.length = min k s.size
  similar : found.map (·.similarity) = (Candidate.best k (s.scored query)).map (·.similarity)
  clear : Candidate.ClearCut k (s.scored query) → found = Candidate.best k (s.scored query)

theorem Sound.search (h : s.Sound) {query : Vector} (valid : query.validate s.dimension = .ok ())
    (k : Nat) (numbers : ∀ r, s.get? r.id = some r → (query.cosineDistance r.vector).IsNumber) :
    ∃ found, s.search query k none = .ok found ∧ s.Finds query k found := by
  obtain ⟨rest, parts⟩ := s.lineup_split query k
  have perm : (s.lineup query).Perm (s.scored query) := h.lineup_perm query
  have falling : Candidate.Falling (s.lineup query) := h.lineup_falling numbers
  have enough : min k (s.lineup query).length ≤ (s.reached query k).length :=
    h.reached_enough query k
  have distinct : (s.lineup query).Nodup :=
    perm.nodup_iff.mpr (h.scored_ids query).of_map
  have inside : s.reached query k ⊆ s.scored query := fun c hc =>
    perm.subset (parts ▸ List.mem_append_left rest hc)
  have once : (s.reached query k).Nodup := (List.nodup_append.mp (parts ▸ distinct)).1
  have similar : (Candidate.best k (s.reached query k)).map (·.similarity) =
      (Candidate.best k (s.scored query)).map (·.similarity) := by
    have front : Candidate.Falling (s.reached query k) :=
      (List.pairwise_append.mp (parts ▸ falling)).1
    have cut : (s.lineup query).take k = (s.reached query k).take k := by
      rw [parts, List.length_append] at enough
      rw [parts, List.take_append]
      rcases Nat.lt_or_ge (s.reached query k).length k with few | many
      · have nothing : rest = [] := List.length_eq_zero_iff.mp (by omega)
        rw [nothing, List.take_nil, List.append_nil]
      · rw [Nat.sub_eq_zero_of_le many, List.take_zero, List.append_nil]
    rw [Candidate.best_similarities front (.refl _), Candidate.best_similarities falling perm,
      ← List.map_take, ← List.map_take, cut]
  refine ⟨_, h.search_eq valid k, ?_⟩
  constructor
  case live => exact fun c hc => inside (Candidate.best_subset _ _ hc)
  case once => exact Candidate.nodup_best once k
  case sorted => exact Candidate.best_sorted _ _
  case length =>
    have same := congrArg List.length similar
    rw [List.length_map, List.length_map] at same
    rw [same, Candidate.best, List.length_take, List.length_mergeSort, scored, Keyed.values,
      List.length_map, List.length_map, size]
  case similar => exact similar
  case clear =>
    exact fun clear => Candidate.best_eq_of_clearCut clear (h.scored_ids query) inside once similar

theorem rebuild_scored (s : GraphStore) (query : Vector) :
    s.rebuild.scored query = s.scored query := by
  rw [scored, scored, s.rebuild_holding.records]

end

/-- Two records with the same vector, the second of which has the lesser id. -/
def tiedRun : List StoreOp :=
  [.upsert ⟨"f", [0, 1], default⟩, .upsert ⟨"b", [1, 0], default⟩, .upsert ⟨"a", [1, 0], default⟩]

def tied : GraphStore :=
  (ofParams 2 {}).applyAll tiedRun

theorem mergeSort_three {α : Type} (le : α → α → Bool) (a b c : α) : [a, b, c].mergeSort le =
    if le a b then if le a c then a :: if le b c then [b, c] else [c, b] else [c, a, b]
    else if le b c then b :: if le a c then [a, c] else [c, a] else [c, b, a] := by
  cases first : le a b with
  | true => simp [List.mergeSort, List.MergeSort.Internal.splitInTwo, List.merge, first]
  | false => simp [List.mergeSort, List.MergeSort.Internal.splitInTwo, List.merge, first]

theorem live_tied : (Keyed.values tied.records).mergeSort (fun a b => !(b.id < a.id)) =
    [⟨"a", [1, 0], default⟩, ⟨"b", [1, 0], default⟩, ⟨"f", [0, 1], default⟩] := by
  have values : Keyed.values tied.records =
      [⟨"f", [0, 1], default⟩, ⟨"b", [1, 0], default⟩, ⟨"a", [1, 0], default⟩] := by decide +kernel
  rw [values, mergeSort_three]
  decide +kernel

theorem best_tied : Candidate.best 1 (tied.scored [1, 0]) = [⟨"a", 1, default⟩] := by
  have scored : tied.scored [1, 0] =
      [⟨"f", 0, default⟩, ⟨"b", 1, default⟩, ⟨"a", 1, default⟩] := by decide +kernel
  rw [scored, Candidate.best, mergeSort_three]
  decide +kernel

theorem reached_tied : tied.reached [1, 0] 1 = [⟨"b", 1, default⟩] := by
  have measured : (tied.nodes.map fun n => (n.number, Vector.cosineDistance [1, 0] n.vector)) =
      [(0, 1), (1, 0), (2, 0)] := by decide +kernel
  rw [reached, ranked, measured, mergeSort_three]
  decide +kernel

theorem reached_rebuilt : tied.rebuild.reached [1, 0] 1 = [⟨"a", 1, default⟩] := by
  have measured : (tied.rebuild.nodes.map fun n =>
      (n.number, Vector.cosineDistance [1, 0] n.vector)) = [(0, 0), (1, 0), (2, 1)] := by
    rw [rebuild, live_tied]
    decide +kernel
  rw [reached, ranked, measured, mergeSort_three, rebuild, live_tied]
  decide +kernel

end GraphStore

end CodeSearch
