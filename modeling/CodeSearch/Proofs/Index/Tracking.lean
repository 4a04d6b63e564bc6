import CodeSearch.Proofs.Index.Pruning
import CodeSearch.Proofs.Index.Undisturbed

/-! # Where held symbols come from

The symbols of a file are those of a reading of some change of the run, under other ids and stamps,
and each of their ids is the hash of a seed that the pool of the run has at this very path. As long
as no two of these seeds collide, the symbols of a new version fit beside those of all other files.
-/

namespace CodeSearch

open Syntax (Parsed)
open SymbolDiff (Comparable Spare spareId names)

/-- Some symbols are others under new ids, up to stamps. -/
structure Renders (f : SymbolId → SymbolId) (original held : List Symbol) : Prop where
  inj : ∀ s ∈ original, ∀ t ∈ original, f s.id = f t.id → s.id = t.id
  perm : (held.map Symbol.unstamped).Perm (original.map (Symbol.rename f))

theorem Renders.length {f : SymbolId → SymbolId} {original held : List Symbol}
    (h : Renders f original held) : held.length = original.length := by
  have same := h.perm.length_eq
  rwa [List.length_map, List.length_map] at same

section

variable (registered : List Language) (snippetChars : Nat) (changes : List FileChange)

/-- The seeds that a run can bring into use. -/
def seedsOf : List Seed :=
  Seed.ofPool (pool registered snippetChars changes)

/-- A consistent index whose symbols all come from the changes of a run. -/
structure Tracked (s : IndexState) : Prop where
  consistent : s.Consistent
  rendered : ∀ path entry, s.unit? path = some entry → ∃ r ∈ readings registered changes,
    r.key = ⟨path, entry.unit.contentHash, entry.unit.language⟩ ∧
      ∃ f, Renders f (r.symbols snippetChars) (s.symbolsOf path)
  seeded : ∀ id symbol, s.symbol? id = some symbol →
    ∃ seed ∈ seedsOf registered snippetChars changes, seed.path = symbol.unit.path ∧ seed.id = id

end

namespace Task

variable {w₀ : CodeIndex} {request : Request}

theorem old_eq (t : Task w₀ request) : t.job.old = w₀.state.symbolsOf t.change.path := by
  simp only [job, Pass.jobOf, Job.old, Pass.held?, IndexState.symbolsOf]
  cases w₀.state.unit? t.change.path with
  | none => rfl
  | some entry => rfl

theorem embedded_eq (t : Task w₀ request) :
    t.job.embedded = (w₀.state.unit? t.change.path).elim [] (·.embedded) := by
  simp only [job, Pass.jobOf, Job.embedded, Pass.held?]
  cases w₀.state.unit? t.change.path with
  | none => rfl
  | some entry => rfl

end Task

/-! ## The symbols of a plan -/

section

variable {w₀ : CodeIndex} {request : Request} {changes : List FileChange}
variable {t : Task w₀ request} {parsed : Parsed}

theorem Tracked.old_few
    (tracked : Tracked w₀.registered w₀.config.pipeline.snippetChars changes w₀.state) :
    t.job.old.length ≤ (pool w₀.registered w₀.config.pipeline.snippetChars changes).length := by
  rw [t.old_eq]
  cases held : w₀.state.unit? t.change.path with
  | none =>
      rw [IndexState.symbolsOf, held]
      exact Nat.zero_le _
  | some entry =>
      obtain ⟨r, hr, -, f, renders⟩ := tracked.rendered _ entry held
      exact renders.length ▸ length_le_pool hr

/-- The reading of a task's source, whose symbols are those extracted up to stamps. -/
theorem Read.reading (read : Read w₀.registered changes t.job.unit.parseKey parsed) :
    ∃ r ∈ readings w₀.registered changes, r.key = t.job.unit.parseKey ∧
      (t.extracted parsed).map Symbol.unstamped =
        r.symbols w₀.config.pipeline.snippetChars := by
  obtain ⟨r, hr, key, rfl⟩ := read
  have path : t.job.unit.path = r.path := (congrArg Syntax.ParseKey.path key).symm
  refine ⟨r, hr, key, ?_⟩
  rw [Task.extracted, Parsed.symbols_unstamped, path]
  rfl

/-- The extracted symbols are in the pool, up to stamps. -/
theorem Read.extracted_pool (read : Read w₀.registered changes t.job.unit.parseKey parsed) {s : Symbol}
    (hs : s ∈ t.extracted parsed) :
    s.unstamped ∈ pool w₀.registered w₀.config.pipeline.snippetChars changes := by
  obtain ⟨r, hr, -, same⟩ := read.reading
  exact mem_pool hr (same ▸ List.mem_map.mpr ⟨s, hs, rfl⟩)

theorem Read.extracted_few (read : Read w₀.registered changes t.job.unit.parseKey parsed) :
    (t.extracted parsed).length ≤
      (pool w₀.registered w₀.config.pipeline.snippetChars changes).length := by
  obtain ⟨r, hr, -, same⟩ := read.reading
  have few : (r.symbols w₀.config.pipeline.snippetChars).length ≤
      (pool w₀.registered w₀.config.pipeline.snippetChars changes).length := length_le_pool hr
  rwa [← same, List.length_map] at few

theorem extracted_unit {s : Symbol} (hs : s ∈ t.extracted parsed) :
    s.unit = ⟨t.change.path, t.job.unit.version⟩ := by
  obtain ⟨n, inside, rfl⟩ := List.mem_iff_getElem.mp hs
  exact (parsed.symbols_walked t.job.unit w₀.config.pipeline.snippetChars n inside).unit

/-- The seed of an extracted symbol with an ordinal that can come into use. -/
theorem Read.seed (read : Read w₀.registered changes t.job.unit.parseKey parsed) {s : Symbol}
    (hs : s ∈ t.extracted parsed) {n : Nat}
    (ordinal : n ∈ Seed.ordinals (pool w₀.registered w₀.config.pipeline.snippetChars changes).length) :
    ⟨t.change.path, s.kind, s.qualifiedName, n⟩ ∈
      seedsOf w₀.registered w₀.config.pipeline.snippetChars changes := by
  have path : s.unstamped.unit.path = t.change.path := congrArg UnitRef.path (extracted_unit hs)
  have inside := Seed.mem_ofPool (read.extracted_pool hs) ordinal
  rw [path] at inside
  exact inside

theorem Read.extracted_seeded (read : Read w₀.registered changes t.job.unit.parseKey parsed) (n : Nat)
    (inside : n < (t.extracted parsed).length) :
    Extract.seedAt t.change.path (t.extracted parsed) n (t.extracted parsed)[n] ∈
      seedsOf w₀.registered w₀.config.pipeline.snippetChars changes := by
  have few : Extract.namesakes ((t.extracted parsed).take n) (t.extracted parsed)[n] ≤ n :=
    (List.countP_le_length).trans (List.length_take_le _ _)
  exact read.seed (List.getElem_mem inside) (Seed.mem_ordinals_low
    (few.trans_lt (inside.trans_le read.extracted_few)))

/-- What is held of a file and what was extracted anew can be compared. -/
theorem Tracked.comparable
    (tracked : Tracked w₀.registered w₀.config.pipeline.snippetChars changes w₀.state)
    (apart : Seed.Apart (seedsOf w₀.registered w₀.config.pipeline.snippetChars changes))
    (read : Read w₀.registered changes t.job.unit.parseKey parsed) :
    Comparable t.job.old (t.extracted parsed) := by
  constructor
  case oldIds => exact t.old_eq ▸ tracked.consistent.symbolsOf_nodup _
  case newIds =>
    exact (parsed.symbols_walked t.job.unit w₀.config.pipeline.snippetChars).ids_nodup apart
      read.extracted_seeded
  case spare =>
    intro s hs j hj k hk same
    have old := tracked.old_few (t := t)
    have new := read.extracted_few
    have path : s.unit.path = t.change.path := congrArg UnitRef.path (extracted_unit hs)
    have seeds := apart _ (read.seed hs (Seed.mem_ordinals_high (k := j) (by omega)))
      _ (read.seed hs (Seed.mem_ordinals_high (k := k) (by omega))) (path ▸ same)
    have ordinals : 1000 + j = 1000 + k := congrArg Seed.ordinal seeds
    omega

/-- Every symbol of a plan has the id of a seed at the path of the plan. -/
theorem Tracked.plan_seeded
    (tracked : Tracked w₀.registered w₀.config.pipeline.snippetChars changes w₀.state)
    (apart : Seed.Apart (seedsOf w₀.registered w₀.config.pipeline.snippetChars changes))
    (read : Read w₀.registered changes t.job.unit.parseKey parsed) {s : Symbol}
    (hs : s ∈ (t.plan parsed).symbols) :
    ∃ seed ∈ seedsOf w₀.registered w₀.config.pipeline.snippetChars changes,
      seed.path = t.change.path ∧ seed.id = s.id := by
  obtain ⟨e, he, id, -, -⟩ := Plan.of_origin hs
  have path : e.unit.path = t.change.path := congrArg UnitRef.path (extracted_unit he)
  rw [id]
  rcases SymbolDiff.names_origin (tracked.comparable apart read) he with old | own | ⟨k, less, spare⟩
  · obtain ⟨o, ho, same⟩ := List.mem_map.mp old
    rw [t.old_eq] at ho
    obtain ⟨held, place⟩ := tracked.consistent.mem_symbolsOf.mp ho
    obtain ⟨seed, inside, seedPath, seedId⟩ := tracked.seeded _ o held
    exact ⟨seed, inside, seedPath.trans place, seedId.trans same⟩
  · obtain ⟨n, inside, rfl⟩ := List.mem_iff_getElem.mp he
    refine ⟨_, read.extracted_seeded n inside, rfl, ?_⟩
    rw [own]
    exact (parsed.symbols_walked t.job.unit w₀.config.pipeline.snippetChars n inside).id.symm
  · have old := tracked.old_few (t := t)
    have new := read.extracted_few
    refine ⟨_, read.seed he (Seed.mem_ordinals_high (k := k) (by omega)), rfl, ?_⟩
    rw [spare, spareId, path]
    rfl

theorem plan_unit {s : Symbol} (hs : s ∈ (t.plan parsed).symbols) :
    s.unit = ⟨t.change.path, t.job.unit.version⟩ := by
  obtain ⟨e, he, -, unit, -⟩ := Plan.of_origin hs
  exact unit.trans (extracted_unit he)

/-- The symbols of a plan take no id that another file has. -/
theorem Tracked.fits
    (tracked : Tracked w₀.registered w₀.config.pipeline.snippetChars changes w₀.state)
    (apart : Seed.Apart (seedsOf w₀.registered w₀.config.pipeline.snippetChars changes))
    (d : Draft changes w₀ request) : IndexState.Fits w₀.state d.update := by
  constructor
  case ids =>
    have ids : (d.plan.symbols.map (·.id)) =
        (SymbolDiff.between d.job.old (d.extracted d.parsed)).current.map (·.id) := Plan.of_ids
    exact ids ▸ SymbolDiff.current_ids (tracked.comparable apart d.read)
  case unit => exact fun s hs => plan_unit hs
  case apart =>
    intro s hs held heldHere
    obtain ⟨seed, inside, path, id⟩ := tracked.plan_seeded apart d.read hs
    obtain ⟨other, insideToo, pathToo, idToo⟩ := tracked.seeded _ held heldHere
    have same : seed = other := apart seed inside other insideToo (id.trans idToo.symm)
    exact pathToo.symm.trans (same ▸ path)

theorem Tracked.plan_renders
    (tracked : Tracked w₀.registered w₀.config.pipeline.snippetChars changes w₀.state)
    (apart : Seed.Apart (seedsOf w₀.registered w₀.config.pipeline.snippetChars changes))
    (read : Read w₀.registered changes t.job.unit.parseKey parsed) :
    Renders (names t.job.old (t.extracted parsed)).apply
      ((t.extracted parsed).map Symbol.unstamped) (t.plan parsed).symbols := by
  constructor
  case inj =>
    intro a ha b hb same
    obtain ⟨s, hs, rfl⟩ := List.mem_map.mp ha
    obtain ⟨u, hu, rfl⟩ := List.mem_map.mp hb
    exact SymbolDiff.names_inj (s := s) (t := u) (tracked.comparable apart read) hs hu same
  case perm => exact Plan.of_unstamped

end

/-! ## What keeps an index tracked -/

section

variable {registered : List Language} {snippetChars : Nat} {changes : List FileChange}
variable {s : IndexState}

theorem Tracked.empty (vectors : VectorIndex) :
    Tracked registered snippetChars changes { vectors } :=
  ⟨IndexState.empty_consistent vectors, fun _ entry h => (Option.some_ne_none entry h.symm).elim,
    fun _ symbol h => (Option.some_ne_none symbol h.symm).elim⟩

theorem Tracked.withVectors (tracked : Tracked registered snippetChars changes s)
    (vectors : VectorIndex) : Tracked registered snippetChars changes { s with vectors } :=
  ⟨tracked.consistent.withVectors vectors, tracked.rendered, tracked.seeded⟩

theorem Tracked.withFeedback (tracked : Tracked registered snippetChars changes s)
    (feedback : FeedbackStore) : Tracked registered snippetChars changes { s with feedback } :=
  ⟨tracked.consistent.withFeedback feedback, tracked.rendered, tracked.seeded⟩

theorem Tracked.removeUnit (tracked : Tracked registered snippetChars changes s) (path : String) :
    Tracked registered snippetChars changes (s.removeUnit path).2 := by
  constructor
  case consistent => exact tracked.consistent.removeUnit path
  case rendered =>
    intro other entry held
    rw [IndexState.unit?_removeUnit] at held
    rw [IndexState.symbolsOf_removeUnit tracked.consistent]
    split at held
    · cases held
    · rename_i different
      rw [if_neg different]
      exact tracked.rendered other entry held
  case seeded =>
    intro id symbol held
    exact tracked.seeded id symbol
      ((IndexState.symbol?_removeUnit tracked.consistent path id symbol).mp held).1

theorem Tracked.pruneStale (tracked : Tracked registered snippetChars changes s) :
    Tracked registered snippetChars changes s.pruneStale.2 := by
  constructor
  case consistent => exact tracked.consistent.pruneStale
  case rendered =>
    intro path entry held
    rw [IndexState.unit?_pruneStale tracked.consistent, Option.map_eq_some_iff] at held
    obtain ⟨before, heldBefore, rfl⟩ := held
    rw [IndexState.symbolsOf_pruneStale tracked.consistent]
    exact tracked.rendered path before heldBefore
  case seeded =>
    intro id symbol held
    rw [IndexState.symbol?_pruneStale tracked.consistent] at held
    exact tracked.seeded id symbol held

end

section

variable {w₀ : CodeIndex} {request : Request} {changes : List FileChange}

theorem Tracked.replaceUnit
    (tracked : Tracked w₀.registered w₀.config.pipeline.snippetChars changes w₀.state)
    (apart : Seed.Apart (seedsOf w₀.registered w₀.config.pipeline.snippetChars changes))
    (d : Draft changes w₀ request) (vectors : VectorIndex) :
    Tracked w₀.registered w₀.config.pipeline.snippetChars changes
      (({ w₀.state with vectors } : IndexState).replaceUnit d.update) := by
  have base := tracked.withVectors vectors
  have fits := (tracked.fits apart d).withVectors vectors
  constructor
  case consistent => exact base.consistent.replaceUnit fits
  case rendered =>
    intro path entry held
    rw [IndexState.unit?_replaceUnit] at held
    split at held
    · rename_i same
      cases held
      obtain ⟨r, hr, key, extracted⟩ := d.read.reading
      rw [same, IndexState.symbolsOf_replaceUnit_self base.consistent fits]
      exact ⟨r, hr, key, _, extracted ▸ tracked.plan_renders apart d.read⟩
    · rename_i different
      rw [IndexState.symbolsOf_replaceUnit_other base.consistent fits different]
      exact base.rendered path entry held
  case seeded =>
    intro id symbol held
    rcases (IndexState.symbol?_replaceUnit base.consistent fits id symbol).mp held with
      ⟨new, rfl⟩ | ⟨old, -⟩
    · obtain ⟨seed, inside, path, own⟩ := tracked.plan_seeded apart d.read new
      exact ⟨seed, inside, path.trans (congrArg UnitRef.path (plan_unit new)).symm, own⟩
    · exact base.seeded id symbol old

/-- Whatever a pass does to an index, it stays tracked. -/
theorem Tracked.effect
    (tracked : Tracked w₀.registered w₀.config.pipeline.snippetChars changes w₀.state)
    (apart : Seed.Apart (seedsOf w₀.registered w₀.config.pipeline.snippetChars changes))
    {s : IndexState} (effect : Effect changes w₀ request s) :
    Tracked w₀.registered w₀.config.pipeline.snippetChars changes s := by
  cases effect with
  | none => exact tracked
  | remove path _ => exact tracked.removeUnit path
  | commit d =>
      have known := IndexState.commit_cases w₀.state d.update
      generalize w₀.state.commit d.update = result at known ⊢
      cases known with
      | invalid cause => exact tracked
      | refused cause vectors _ _ => exact tracked.withVectors _
      | replaced vectors _ _ => exact tracked.replaceUnit apart d vectors

end

end CodeSearch
