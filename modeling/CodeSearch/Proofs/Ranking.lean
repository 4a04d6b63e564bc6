import CodeSearch.Proofs.Score
import CodeSearch.Proofs.Sorting
import CodeSearch.Ranking
import Mathlib.Data.List.Nodup

/-! # What a ranking consists of

The candidates have one order, by score and then by id, whatever order they come in. A ranking is a
first part of it, numbered from 1. Since a score depends on its own candidate only, further
candidates take places among the others but do not reorder them.
-/

namespace CodeSearch

open Time (Instant)

/-- A result that stands before another one whatever else is ranked: it has a better score, or the
    same and the lesser id. -/
def RankedResult.Precedes (a b : RankedResult) : Prop :=
  b.score.rank < a.score.rank ∨ a.score.rank = b.score.rank ∧ a.symbol.id < b.symbol.id

namespace Ranking

theorem le_total (a b : RankedResult) : (le a b || le b a) = true :=
  Score.bestFirst_total _ _

theorem le_trans (a b c : RankedResult) (first : le a b = true) (second : le b c = true) :
    le a c = true :=
  Score.bestFirst_trans _ _ _ first second

theorem precedes_of_le {a b : RankedResult} (h : le a b = true)
    (different : a.symbol.id ≠ b.symbol.id) : a.Precedes b :=
  (Score.bestFirst_iff.mp h).imp_right fun ⟨same, less⟩ => ⟨same, lt_of_le_of_ne less different⟩

section

variable {c : RankingConfig} {entries : List Entry} {intent : QueryIntent}
variable {feedback : FeedbackStore} {now : Instant} {topK : Nat}

/-- All candidates with their scores, best first. -/
def standing (c : RankingConfig) (entries : List Entry) (intent : QueryIntent)
    (feedback : FeedbackStore) (now : Instant) : List RankedResult :=
  (entries.map (scored c intent feedback now)).mergeSort le

/-- A result at a place, which is counted from 0. -/
def numbered (r : RankedResult) (place : Nat) : RankedResult :=
  { r with rank := place + 1 }

theorem rank_eq : rank c entries intent feedback now topK =
    ((standing c entries intent feedback now).take topK).zipIdx.map fun r => numbered r.1 r.2 := rfl

theorem mem_standing {r : RankedResult} : r ∈ standing c entries intent feedback now ↔
    ∃ e ∈ entries, scored c intent feedback now e = r := by
  rw [standing, List.mem_mergeSort, List.mem_map]

theorem standing_sorted :
    (standing c entries intent feedback now).Pairwise fun a b => le a b = true :=
  List.pairwise_mergeSort le_trans le_total _

theorem standing_ids : ((standing c entries intent feedback now).map (·.symbol.id)).Perm
    (entries.map (·.1.id)) := by
  have ids : (entries.map (scored c intent feedback now)).map (·.symbol.id) =
      entries.map (·.1.id) := by
    rw [List.map_map]
    rfl
  exact ids ▸ (List.mergeSort_perm _ le).map (·.symbol.id)

theorem getElem?_rank (place : Nat) : (rank c entries intent feedback now topK)[place]? =
    ((standing c entries intent feedback now).take topK)[place]?.map (numbered · place) := by
  rw [rank_eq, List.getElem?_map, List.getElem?_zipIdx, Option.map_map, Nat.zero_add]
  rfl

theorem mem_rank {r : RankedResult} (h : r ∈ rank c entries intent feedback now topK) :
    ∃ s ∈ (standing c entries intent feedback now).take topK, ∃ place, r = numbered s place := by
  obtain ⟨place, found⟩ := List.mem_iff_getElem?.mp h
  rw [getElem?_rank] at found
  obtain ⟨s, inside, rfl⟩ := Option.map_eq_some_iff.mp found
  exact ⟨s, List.mem_of_getElem? inside, place, rfl⟩

theorem rank_of_mem {s : RankedResult}
    (h : s ∈ (standing c entries intent feedback now).take topK) :
    ∃ r ∈ rank c entries intent feedback now topK, ∃ place, r = numbered s place := by
  obtain ⟨place, found⟩ := List.mem_iff_getElem?.mp h
  refine ⟨numbered s place, List.mem_iff_getElem?.mpr ⟨place, ?_⟩, place, rfl⟩
  rw [getElem?_rank, found]
  rfl

/-! ## The results -/

/-- Every result is a candidate with its score. -/
theorem rank_origin {r : RankedResult} (h : r ∈ rank c entries intent feedback now topK) :
    ∃ e ∈ entries, r.symbol = e.1 ∧ r.score = (scored c intent feedback now e).score := by
  obtain ⟨s, inside, place, rfl⟩ := mem_rank h
  obtain ⟨e, he, rfl⟩ := mem_standing.mp (List.mem_of_mem_take inside)
  exact ⟨e, he, rfl, rfl⟩

theorem rank_length : (rank c entries intent feedback now topK).length = min topK entries.length := by
  rw [rank_eq, List.length_map, List.length_zipIdx, List.length_take, standing,
    List.length_mergeSort, List.length_map]

theorem rank_numbers {place : Nat} {r : RankedResult}
    (h : (rank c entries intent feedback now topK)[place]? = some r) : r.rank = place + 1 := by
  rw [getElem?_rank] at h
  obtain ⟨s, -, rfl⟩ := Option.map_eq_some_iff.mp h
  rfl

theorem rank_ids (distinct : (entries.map (·.1.id)).Nodup) :
    ((rank c entries intent feedback now topK).map (·.symbol.id)).Nodup := by
  have ids : (rank c entries intent feedback now topK).map (·.symbol.id) =
      ((standing c entries intent feedback now).take topK).map (·.symbol.id) := by
    refine List.ext_getElem? fun place => ?_
    rw [List.getElem?_map, List.getElem?_map, getElem?_rank, Option.map_map]
    rfl
  rw [ids]
  exact (standing_ids.nodup_iff.mpr distinct).sublist ((List.take_sublist _ _).map _)

/-- A candidate is a result, or as many as are asked for stand before it. -/
theorem rank_complete (distinct : (entries.map (·.1.id)).Nodup) {e : Entry} (he : e ∈ entries) :
    (∃ r ∈ rank c entries intent feedback now topK, r.symbol = e.1) ∨
      (rank c entries intent feedback now topK).length = topK ∧
        ∀ r ∈ rank c entries intent feedback now topK,
          r.Precedes (scored c intent feedback now e) := by
  have listed : scored c intent feedback now e ∈ standing c entries intent feedback now :=
    mem_standing.mpr ⟨e, he, rfl⟩
  have parts := List.take_append_drop topK (standing c entries intent feedback now)
  have apart : ((standing c entries intent feedback now).map (·.symbol.id)).Nodup :=
    standing_ids.nodup_iff.mpr distinct
  rw [← parts] at listed apart
  rcases List.mem_append.mp listed with among | behind
  · obtain ⟨r, hr, place, rfl⟩ := rank_of_mem among
    exact .inl ⟨_, hr, rfl⟩
  · right
    constructor
    · have more : topK < (standing c entries intent feedback now).length := by
        by_contra few
        rw [List.drop_eq_nil_of_le (Nat.le_of_not_lt few)] at behind
        cases behind
      rw [rank_eq, List.length_map, List.length_zipIdx, List.length_take]
      omega
    · intro r hr
      obtain ⟨s, inside, place, rfl⟩ := mem_rank hr
      have before := le_of_take_of_drop standing_sorted inside behind
      rw [List.map_append, List.nodup_append] at apart
      have different := apart.2.2 _ (List.mem_map.mpr ⟨s, inside, rfl⟩) _
        (List.mem_map.mpr ⟨_, behind, rfl⟩)
      exact precedes_of_le before different

theorem standing_perm {others : List Entry} (perm : entries.Perm others)
    (distinct : (entries.map (·.1.id)).Nodup) :
    standing c entries intent feedback now = standing c others intent feedback now := by
  refine mergeSort_eq_of_perm le_trans le_total (perm.map _) fun a ha b hb first second => ?_
  obtain ⟨e, he, rfl⟩ := List.mem_map.mp ha
  obtain ⟨f, hf, rfl⟩ := List.mem_map.mp hb
  have ids : e.1.id = f.1.id := Score.bestFirst_antisymm first second
  rw [List.inj_on_of_nodup_map distinct he hf ids]

/-- The order in which candidates come does not matter. -/
theorem rank_perm {others : List Entry} (perm : entries.Perm others)
    (distinct : (entries.map (·.1.id)).Nodup) :
    rank c entries intent feedback now topK = rank c others intent feedback now topK := by
  rw [rank_eq, rank_eq, standing_perm perm distinct]

/-! ## One order -/

/-- A result without its place. -/
def unnumbered (r : RankedResult) : RankedResult :=
  { r with rank := 0 }

theorem unnumbered_rank : (rank c entries intent feedback now topK).map unnumbered =
    (standing c entries intent feedback now).take topK := by
  have bare : ∀ r ∈ (standing c entries intent feedback now).take topK, unnumbered r = r := by
    intro r inside
    obtain ⟨e, -, rfl⟩ := mem_standing.mp (List.mem_of_mem_take inside)
    rfl
  refine List.ext_getElem? fun place => ?_
  rw [List.getElem?_map, getElem?_rank, Option.map_map]
  cases found : ((standing c entries intent feedback now).take topK)[place]? with
  | none => rfl
  | some r => exact congrArg some (bare r (List.mem_of_getElem? found))

/-- Fewer results are the first of more. -/
theorem rank_take {j : Nat} (fewer : j ≤ topK) : rank c entries intent feedback now j =
    (rank c entries intent feedback now topK).take j := by
  refine List.ext_getElem? fun place => ?_
  rw [getElem?_rank, List.getElem?_take, List.getElem?_take, getElem?_rank, List.getElem?_take]
  split
  · rename_i inside
    rw [if_pos (Nat.lt_of_lt_of_le inside fewer)]
  · rfl

theorem standing_precedes (distinct : (entries.map (·.1.id)).Nodup) :
    (standing c entries intent feedback now).Pairwise RankedResult.Precedes := by
  have ids : ((standing c entries intent feedback now).map (·.symbol.id)).Nodup :=
    standing_ids.nodup_iff.mpr distinct
  exact standing_sorted.imp₂ (fun _ _ => precedes_of_le) (List.pairwise_map.mp ids)

theorem rank_precedes (distinct : (entries.map (·.1.id)).Nodup) :
    (rank c entries intent feedback now topK).Pairwise RankedResult.Precedes := by
  have ordered : ((rank c entries intent feedback now topK).map unnumbered).Pairwise
      RankedResult.Precedes := by
    rw [unnumbered_rank]
    exact (standing_precedes distinct).sublist (List.take_sublist topK _)
  rw [List.pairwise_map] at ordered
  exact ordered

/-- What is ranked besides does not change the order of some candidates. -/
theorem standing_filter {more : List Entry}
    (distinct : ((entries ++ more).map (·.1.id)).Nodup) :
    (standing c (entries ++ more) intent feedback now).filter
        (fun r => r.symbol.id ∈ entries.map (·.1.id)) =
      standing c entries intent feedback now := by
  have apart : ∀ e ∈ more, e.1.id ∉ entries.map (·.1.id) := by
    intro e he listed
    rw [List.map_append] at distinct
    exact (List.nodup_append.mp distinct).2.2 _ listed _ (List.mem_map_of_mem he) rfl
  rw [standing, filter_mergeSort le_trans le_total, List.map_append, List.filter_append,
    List.filter_eq_self.mpr, List.filter_eq_nil_iff.mpr, List.append_nil, standing]
  · intro r hr
    obtain ⟨e, he, rfl⟩ := List.mem_map.mp hr
    exact mt of_decide_eq_true (apart e he)
  · intro r hr
    obtain ⟨e, he, rfl⟩ := List.mem_map.mp hr
    exact decide_eq_true (List.mem_map.mpr ⟨e, he, rfl⟩)

/-- Candidates stand to each other in every ranking as they do when they are ranked alone. -/
theorem rank_filter {more : List Entry} (distinct : ((entries ++ more).map (·.1.id)).Nodup) :
    ((rank c (entries ++ more) intent feedback now topK).filter
        fun r => r.symbol.id ∈ entries.map (·.1.id)).map unnumbered <+:
      (rank c entries intent feedback now topK).map unnumbered := by
  have before := filter_take_prefix (fun r => decide (r.symbol.id ∈ entries.map (·.1.id)))
    (standing c (entries ++ more) intent feedback now) topK
  rw [standing_filter distinct, ← unnumbered_rank, ← unnumbered_rank, List.filter_map] at before
  exact before

/-- What the rankings of some candidates have in common, whatever else is ranked with them. -/
structure OneOrder (c : RankingConfig) (entries : List Entry) (intent : QueryIntent)
    (feedback : FeedbackStore) (now : Instant) : Prop where
  /-- The order in which the candidates come does not matter. -/
  shuffled : ∀ others, entries.Perm others → ∀ topK,
    rank c others intent feedback now topK = rank c entries intent feedback now topK
  length : ∀ topK, (rank c entries intent feedback now topK).length = min topK entries.length
  /-- Fewer results are the first of more. -/
  first : ∀ j topK, j ≤ topK →
    rank c entries intent feedback now j = (rank c entries intent feedback now topK).take j
  /-- A result is a candidate with its own score. -/
  scored : ∀ topK, ∀ r ∈ rank c entries intent feedback now topK,
    ∃ e ∈ entries, unnumbered r = scored c intent feedback now e
  /-- Scores fall, and among equal ones the ids rise. -/
  strict : ∀ topK, (rank c entries intent feedback now topK).Pairwise RankedResult.Precedes
  numbers : ∀ topK, (rank c entries intent feedback now topK).map (·.rank) =
    (List.range (min topK entries.length)).map (· + 1)
  /-- Other candidates push these back, but do not reorder them. -/
  joined : ∀ more, ((entries ++ more).map (·.1.id)).Nodup → ∀ topK,
    ((rank c (entries ++ more) intent feedback now topK).filter
        fun r => r.symbol.id ∈ entries.map (·.1.id)).map unnumbered <+:
      (rank c entries intent feedback now topK).map unnumbered

/-- Candidates with distinct ids have one order, of which every ranking is the first part. -/
theorem rank_one_order (c : RankingConfig) {entries : List Entry} (intent : QueryIntent)
    (feedback : FeedbackStore) (now : Instant) (distinct : (entries.map (·.1.id)).Nodup) :
    OneOrder c entries intent feedback now := by
  constructor
  case shuffled => exact fun others perm topK => (rank_perm perm distinct).symm
  case length => exact fun topK => rank_length
  case first => exact fun j topK fewer => rank_take fewer
  case scored =>
    intro topK r hr
    have inside : unnumbered r ∈ (rank c entries intent feedback now topK).map unnumbered :=
      List.mem_map_of_mem hr
    rw [unnumbered_rank] at inside
    obtain ⟨e, he, same⟩ := mem_standing.mp (List.mem_of_mem_take inside)
    exact ⟨e, he, same.symm⟩
  case strict => exact fun topK => rank_precedes distinct
  case numbers =>
    intro topK
    have length : (rank c entries intent feedback now topK).length = min topK entries.length :=
      rank_length
    refine List.ext_getElem? fun place => ?_
    rw [List.getElem?_map, List.getElem?_map, ← length]
    cases found : (rank c entries intent feedback now topK)[place]? with
    | none =>
        rw [List.getElem?_eq_none]
        · rfl
        · simpa using found
    | some r =>
        obtain ⟨inside, -⟩ := List.getElem?_eq_some_iff.mp found
        rw [List.getElem?_range inside, Option.map_some, Option.map_some, rank_numbers found]
  case joined => exact fun more distinct topK => rank_filter distinct

end

/-- Two candidates that are equally similar to a question, and a third one. -/
def tiedEntries : List Entry :=
  [({ (default : Symbol) with id := "b" }, 0.4), ({ (default : Symbol) with id := "a" }, 0.4),
    ({ (default : Symbol) with id := "c" }, 0.9)]

theorem tiedEntries_one_order : (tiedEntries.map (·.1.id)).Nodup ∧
    OneOrder {} tiedEntries default {} default := by
  have distinct : (tiedEntries.map (·.1.id)).Nodup := by decide
  exact ⟨distinct, rank_one_order {} default {} default distinct⟩

end Ranking

end CodeSearch
