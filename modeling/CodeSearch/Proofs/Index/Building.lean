import CodeSearch.Proofs.Except
import CodeSearch.Proofs.Index.Uncommitted

/-! # Building an index

Every section of a configuration is checked before an index is built by it. The embedder and the
store are made for the dimension that is set. But there is no embedder of less than eight buckets,
so that an index of a smaller dimension is refused unless another embedder is given. Whatever
becomes of an index that is built, its store keeps to the settings.
-/

namespace CodeSearch

open Time (Instant)

/-! ## Configurations that are accepted -/

namespace IndexConfig

variable {c : IndexConfig}

/-- What is asked of each section. -/
structure Accepted (c : IndexConfig) : Prop where
  numbers : c.numberFault? = none
  retry : c.retry.validate = .ok ()
  chunking : c.chunking.validate = .ok ()
  /-- The settings of a graph are looked at only when there is to be one. -/
  graph : c.vector.backend = .graph → c.vector.graph.validate = .ok ()
  ranking : c.ranking.validate = .ok ()
  exclusions : ∃ globs, c.exclusions.globs = .ok globs

theorem validate_iff : c.validate = .ok () ↔ c.Accepted := by
  constructor
  · intro valid
    unfold validate at valid
    cases numbers : c.numberFault? with
    | some fault =>
        rw [numbers] at valid
        cases valid
    | none =>
        rw [numbers] at valid
        obtain ⟨_, retry, valid⟩ := ok_of_bind valid
        obtain ⟨_, chunking, valid⟩ := ok_of_bind valid
        obtain ⟨graph, valid⟩ := ok_of_when valid
        obtain ⟨_, ranking, valid⟩ := ok_of_bind valid
        refine ⟨numbers, ok_of_mapError retry, ok_of_mapError chunking,
          fun backend => ok_of_mapError (graph backend), ok_of_mapError ranking, ?_⟩
        cases exclusions : c.exclusions.globs with
        | error cause =>
            rw [exclusions] at valid
            cases valid
        | ok globs => exact ⟨globs, rfl⟩
  · rintro ⟨numbers, retry, chunking, graph, ranking, globs, exclusions⟩
    unfold validate
    rw [numbers, retry, chunking, ranking, exclusions]
    by_cases backend : c.vector.backend = .graph
    · rw [graph backend]
      simp only [backend]
      rfl
    · simp only [backend]
      rfl

theorem Accepted.positive (h : c.Accepted) :
    0 < c.vector.overfetchFactor ∧ 0 < c.vector.maxOverfetchRounds := by
  have numbers := h.numbers
  unfold numberFault? at numbers
  simp only [Bool.or_eq_true, decide_eq_true_eq] at numbers
  split_ifs at numbers with _ _ _ _ zero
  omega

end IndexConfig

/-! ## Stores as they are asked for -/

theorem GraphParams.orDefault_valid {p : GraphParams} (valid : p.validate = .ok ()) :
    p.orDefault = p := by
  unfold orDefault
  rw [valid]

/-- A store of the backend and the dimension that are set, of which a graph has the parameters that
    are set. -/
inductive VectorConfig.Sets (v : VectorConfig) : VectorStore → Prop where
  | exact {s : ExactStore} (backend : v.backend = .exact) (dimension : s.dimension = v.dimension) :
    v.Sets (.exact s)
  | graph {s : GraphStore} (backend : v.backend = .graph) (dimension : s.dimension = v.dimension)
    (params : s.params = v.graph) : v.Sets (.graph s)

namespace VectorConfig

theorem Sets.dimension {v : VectorConfig} {s : VectorStore} (h : v.Sets s) :
    s.dimension = v.dimension := by
  cases h with
  | exact _ dimension => exact dimension
  | graph _ dimension _ => exact dimension

/-- Records come and go, the settings of a store stay. -/
theorem sets_lasting (v : VectorConfig) : VectorIndex.Lasting v.Sets := by
  have keeps {s t : GraphStore} {records : Keyed SymbolId Record} (backend : v.backend = .graph)
      (dimension : s.dimension = v.dimension) (params : s.params = v.graph)
      (holding : s.Holding records t) : v.Sets (.graph t) :=
    .graph backend (holding.dimension.trans dimension) (holding.params.trans params)
  refine ⟨fun s r h => ?upsert, fun s id h => ?delete, fun s numbers h => ?outage⟩
  case upsert =>
    cases h with
    | @exact e backend dimension =>
        cases valid : r.vector.validate e.dimension with
        | error cause =>
            simp only [VectorStore.upsert, ExactStore.upsert_error valid]
            exact .exact backend dimension
        | ok _ =>
            simp only [VectorStore.upsert, ExactStore.upsert_ok valid]
            exact .exact backend dimension
    | @graph g backend dimension params =>
        cases valid : r.vector.validate g.dimension with
        | error cause =>
            simp only [VectorStore.upsert, GraphStore.upsert_error valid]
            exact .graph backend dimension params
        | ok _ =>
            simp only [VectorStore.upsert, GraphStore.upsert_ok valid]
            exact keeps backend dimension params (g.linked_holding r).tidy
  case delete =>
    cases h with
    | exact backend dimension => exact .exact backend dimension
    | @graph g backend dimension params =>
        exact keeps backend dimension params (g.delete_holding id)
  case outage =>
    cases h with
    | exact backend dimension => exact .exact backend dimension
    | graph backend dimension params => exact .graph backend dimension params

end VectorConfig

namespace CodeIndex

theorem storeOf_sets {c : IndexConfig} (h : c.Accepted) : c.vector.Sets (storeOf c.vector) := by
  unfold storeOf
  split
  · rename_i backend
    exact .exact backend rfl
  · rename_i backend
    exact .graph backend rfl (GraphParams.orDefault_valid (h.graph backend))

/-! ## What is built -/

/-- Even the embedder of the fewest buckets has more of them than are set. -/
def tooFewBuckets (dimension : Nat) : IndexError :=
  .config (s!"embedding provider {HashingEmbedder.modelName} produces 8 " ++
    s!"dimensions, vector.dimension is {dimension}")

section

variable {c : IndexConfig} {now : Instant}

/-- The embedder decides alone whether an index is built by a configuration that is accepted. -/
theorem build_accepted (valid : c.validate = .ok ()) :
    build c {} now =
      if 8 ≤ c.vector.dimension then
        .ok
          { config := c, registered := Language.all
            embedder := Embedder.hashing c.vector.dimension
            cache := Syntax.ParseCache.ofCapacity c.cache.capacity
            state := { vectors := initialVectors c {} }
            now }
      else .error (tooFewBuckets c.vector.dimension) := by
  have buckets : (Embedder.hashing c.vector.dimension).dimension = max c.vector.dimension 8 := rfl
  have fits := (storeOf_sets (IndexConfig.validate_iff.mp valid)).dimension
  unfold build
  simp only [Option.getD_none, valid, buckets, fits]
  by_cases enough : 8 ≤ c.vector.dimension
  · have same : max c.vector.dimension 8 = c.vector.dimension := Nat.max_eq_left enough
    simp only [same, enough, ne_eq, not_true_eq_false, if_true, if_false]
    rfl
  · have least : max c.vector.dimension 8 = 8 := Nat.max_eq_right (Nat.le_of_not_le enough)
    have different : 8 ≠ c.vector.dimension := fun same => enough (Nat.le_of_eq same)
    simp only [least, enough, different, ne_eq, not_false_eq_true, if_true, if_false]
    rfl

end

/-- A graph with parameters of its own. -/
def graphConfig : IndexConfig :=
  { vector := { backend := .graph, dimension := 8, graph := { m := 2, efConstruction := 4 } } }

/-- An index of vectors that are too short for the embedder. -/
def narrowConfig : IndexConfig :=
  { vector := { dimension := 4 } }

theorem graphConfig_valid : graphConfig.validate = .ok () := by
  obtain ⟨_, valid⟩ := ok_of_isOk (x := graphConfig.validate) (by decide +kernel)
  exact valid

theorem narrowConfig_valid : narrowConfig.validate = .ok () := by
  obtain ⟨_, valid⟩ := ok_of_isOk (x := narrowConfig.validate) (by decide +kernel)
  exact valid

end CodeIndex

end CodeSearch
