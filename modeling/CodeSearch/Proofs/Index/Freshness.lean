import CodeSearch.Proofs.Index.Mirror
import CodeSearch.Proofs.Index.Run

/-! # Vectors along a run

The vectors of an index stay true to its symbols along every run. A symbol whose vector stays did
not change, so that its vector is still that of its text; its metadata may be new, and is then
written again.
-/

namespace CodeSearch

open IndexState (Mirrored Mirroring Mirrors Reflects SameVectors selectedIds)
open Time (Instant)

/-! ## What a plan does to vectors -/

namespace Plan

variable {chunking : Chunking} {job : Job} {extracted : List Symbol}

theorem mem_toEmbed {s : Symbol} : s ∈ (Plan.of chunking job extracted).toEmbed ↔
    s ∈ chunking.select (Plan.of chunking job extracted).symbols ∧
      (s.id ∈ changedIds job extracted ∨ s.id ∉ job.embedded) := by
  simp [Plan.of, changedIds, isNew]

theorem mem_kept {s : Symbol} : s ∈ (Plan.of chunking job extracted).kept ↔
    s ∈ chunking.select (Plan.of chunking job extracted).symbols ∧
      s.id ∉ changedIds job extracted ∧ s.id ∈ job.embedded := by
  simp [Plan.of, changedIds, isNew]

theorem mem_deletes {id : SymbolId} : id ∈ (Plan.of chunking job extracted).deletes ↔
    id ∈ job.embedded ∧ id ∉ selectedIds chunking (Plan.of chunking job extracted).symbols := by
  simp [Plan.of, selectedIds]

end Plan

theorem Pass.mem_refreshed {w : CodeIndex} {kept : List Symbol} {r : Record} :
    r ∈ Pass.refreshed w kept ↔ ∃ s ∈ kept, ∃ held, w.state.vectors.get? s.id = some held ∧
      held.metadata ≠ s.metadata ∧ r = { held with metadata := s.metadata } := by
  unfold Pass.refreshed
  rw [List.mem_filterMap]
  refine exists_congr fun s => and_congr_right fun _ => ?_
  cases w.state.vectors.get? s.id with
  | none => simp
  | some held =>
      by_cases same : held.metadata = s.metadata
      · simp [same]
      · simp [same, eq_comm]

section

variable {changes : List FileChange} {w₀ : CodeIndex} {request : Request} {vec : String → Vector}

theorem Draft.vectors_length (d : Draft changes w₀ request) :
    d.vectors.length = d.plan.toEmbed.length := by
  have accepted : Accepted w₀ d.plan.toEmbed d.vectors := d.accepted
  rcases accepted with ⟨nothing, none⟩ | ⟨late, answered⟩
  · rw [none, nothing]
    rfl
  · rw [(Embedder.embedChecked_ok answered).2.1, List.length_map]

/-- Embedded anew are the texts of the symbols, each under the id of its symbol. -/
theorem Draft.fresh_eq (d : Draft changes w₀ request) (deterministic : w₀.embedder.Deterministic vec)
    (valid : ∀ r ∈ d.records, r.vector.validate w₀.state.vectors.store.dimension = .ok ()) :
    d.fresh = d.plan.toEmbed.map fun s => ⟨s.id, vec (w₀.config.chunking.text s), s.metadata⟩ := by
  have accepted : Accepted w₀ d.plan.toEmbed d.vectors := d.accepted
  have vectors : d.vectors = d.plan.toEmbed.map fun s => vec (w₀.config.chunking.text s) := by
    rcases accepted with ⟨nothing, none⟩ | ⟨late, answered⟩
    · rw [none, nothing]
      rfl
    · have paired : (d.plan.toEmbed.zip d.vectors).map Prod.snd = d.vectors :=
        List.map_snd_zip (Nat.le_of_eq d.vectors_length)
      have each : ∀ v ∈ d.vectors, v.validate w₀.state.vectors.store.dimension = .ok () := by
        intro v hv
        rw [← paired] at hv
        obtain ⟨⟨s, v⟩, pair, rfl⟩ := List.mem_map.mp hv
        exact valid ⟨s.id, v, s.metadata⟩
          (List.mem_append_right _ (List.mem_map.mpr ⟨(s, v), pair, rfl⟩))
      rw [deterministic.accepted answered each, List.map_map]
      rfl
  rw [Draft.fresh, vectors, List.map_zip_eq_zipWith, List.zipWith_map_right, List.zipWith_self]
  rfl

/-- A symbol whose vector stays has one, which is that of its text. -/
theorem Draft.kept_record (d : Draft changes w₀ request)
    (tracked : Tracked w₀.registered w₀.config.pipeline.snippetChars changes w₀.state)
    (apart : Seed.Apart (seedsOf w₀.registered w₀.config.pipeline.snippetChars changes))
    (nodes : NodesApart w₀.registered changes)
    (mirrored : Mirrored w₀.config.chunking vec w₀.state) {s : Symbol} (hs : s ∈ d.plan.kept) :
    ∃ r, w₀.state.vectors.get? s.id = some r ∧ r.id = s.id ∧
      r.vector = vec (w₀.config.chunking.text s) := by
  obtain ⟨chosen, unchanged, embedded⟩ := Plan.mem_kept.mp hs
  rw [d.embedded_eq] at embedded
  obtain ⟨r, held⟩ := (mirrored.covered s.id).mpr ⟨d.change.path, embedded⟩
  obtain ⟨symbol, heldSymbol, reflects⟩ := mirrored.fresh s.id r held
  obtain ⟨same, heldToo, text⟩ := tracked.plan_unchanged apart nodes d.read
    (w₀.config.chunking.select_subset _ chosen) unchanged
  rw [heldSymbol] at heldToo
  cases heldToo
  have own : symbol.id = s.id := tracked.consistent.ownId s.id symbol heldSymbol
  exact ⟨r, held, reflects.id.trans own, text ▸ reflects.vector⟩

theorem Draft.mirrors (d : Draft changes w₀ request)
    (tracked : Tracked w₀.registered w₀.config.pipeline.snippetChars changes w₀.state)
    (apart : Seed.Apart (seedsOf w₀.registered w₀.config.pipeline.snippetChars changes))
    (nodes : NodesApart w₀.registered changes)
    (mirrored : Mirrored w₀.config.chunking vec w₀.state)
    (deterministic : w₀.embedder.Deterministic vec)
    (valid : ∀ r ∈ d.records, r.vector.validate w₀.state.vectors.store.dimension = .ok ()) :
    Mirrors w₀.config.chunking vec w₀.state d.update := by
  have fresh := d.fresh_eq deterministic valid
  have embedded : d.job.embedded = w₀.state.embeddedOf d.change.path := d.embedded_eq
  constructor
  case written =>
    intro r hr
    rcases List.mem_append.mp hr with refreshed | new
    · obtain ⟨s, hs, held, present, -, rfl⟩ := Pass.mem_refreshed.mp refreshed
      obtain ⟨r, presentToo, own, vector⟩ := d.kept_record tracked apart nodes mirrored hs
      rw [present] at presentToo
      cases presentToo
      exact ⟨s, (Plan.mem_kept.mp hs).1, own, vector, rfl⟩
    · rw [fresh] at new
      obtain ⟨s, hs, rfl⟩ := List.mem_map.mp new
      exact ⟨s, (Plan.mem_toEmbed.mp hs).1, rfl, rfl, rfl⟩
  case kept =>
    intro s chosen unwritten
    have old : s ∉ d.plan.toEmbed := by
      intro hs
      have new : (⟨s.id, vec (w₀.config.chunking.text s), s.metadata⟩ : Record) ∈ d.fresh :=
        fresh ▸ List.mem_map.mpr ⟨s, hs, rfl⟩
      exact unwritten (List.mem_map.mpr ⟨_, List.mem_append_right _ new, rfl⟩)
    have stays : s.id ∉ Plan.changedIds d.job (d.extracted d.parsed) ∧ s.id ∈ d.job.embedded := by
      by_contra new
      exact old (Plan.mem_toEmbed.mpr ⟨chosen, by tauto⟩)
    have hs : s ∈ d.plan.kept := Plan.mem_kept.mpr ⟨chosen, stays⟩
    obtain ⟨r, present, own, vector⟩ := d.kept_record tracked apart nodes mirrored hs
    refine ⟨embedded ▸ stays.2, r, present, own, vector, ?_⟩
    -- a record with other metadata would have been written again
    by_contra other
    exact unwritten (List.mem_map.mpr ⟨_, List.mem_append_left _
      (Pass.mem_refreshed.mpr ⟨s, hs, r, present, other, rfl⟩), own⟩)
  case dropped =>
    intro id
    exact embedded ▸ Plan.mem_deletes

/-- Whatever a pass does to an index, its vectors stay true to its symbols. -/
theorem IndexState.Mirroring.effect (h : Mirroring w₀.config.chunking vec w₀.state)
    (tracked : Tracked w₀.registered w₀.config.pipeline.snippetChars changes w₀.state)
    (apart : Seed.Apart (seedsOf w₀.registered w₀.config.pipeline.snippetChars changes))
    (nodes : NodesApart w₀.registered changes) (deterministic : w₀.embedder.Deterministic vec)
    {s : IndexState} (effect : Effect changes w₀ request s) :
    Mirroring w₀.config.chunking vec s := by
  cases effect with
  | none => exact h
  | remove path _ => exact h.removeUnit tracked.consistent path
  | commit d =>
      rcases IndexState.commit_vectors d.update h.sound h.steady with
        ⟨vectors, after, same⟩ | ⟨vectors, after, new⟩
      · rw [after]
        exact h.withVectors same
      · rw [after]
        exact h.replaceUnit tracked.consistent (tracked.fits apart d)
          (d.mirrors tracked apart nodes h.toMirrored deterministic new.valid) new

end

/-! ## Runs -/

theorem VectorStore.get?_isEmpty {store : VectorStore} (empty : store.isEmpty = true)
    (id : SymbolId) : store.get? id = none := by
  have none {records : Keyed SymbolId Record} (length : (records.length == 0) = true) :
      Keyed.get? records id = none := by
    rw [List.length_eq_zero_iff.mp (beq_iff_eq.mp length)]
    rfl
  cases store with
  | exact | graph | faulty => exact none empty

theorem VectorIndex.failWrite_same (i : VectorIndex) (write : Nat) :
    SameVectors i (i.failWrite write) where
  get id := VectorStore.get?_failWrites _ [write] id
  dimension := VectorStore.dimension_failWrites _ [write]
  steady := VectorStore.steady_failWrites _ write

namespace CodeIndex

/-- What holds all along a run when the embedder is deterministic. -/
structure Reflecting (c : IndexConfig) (registered : List Language) (changes : List FileChange)
    (vec : String → Vector) (w : CodeIndex) : Prop extends Running c registered changes w where
  mirroring : Mirroring c.chunking vec w.state
  deterministic : w.embedder.Deterministic vec

section

variable {c : IndexConfig} {registered : List Language} {changes : List FileChange}
variable {vec : String → Vector} {w : CodeIndex}

/-- The store of a built index is the one that it was given, or one that holds no records and refuses
    no writes. -/
theorem build_store {parts : IndexParts} {now : Instant} (built : build c parts now = .ok w)
    {P : VectorStore → Prop} (store : ∀ store, parts.store = some store → P store)
    (other : P (storeOf c.vector)) :
    ∃ vectors : VectorIndex, w.state = { vectors } ∧ P vectors.store := by
  obtain ⟨-, -, state, -⟩ := build_ok built
  refine ⟨initialVectors c parts, state, ?_⟩
  change P (parts.store.getD (storeOf c.vector))
  cases given : parts.store with
  | some s => exact store s given
  | none => exact other

theorem storeOf_fresh (v : VectorConfig) :
    (storeOf v).isEmpty = true ∧ (storeOf v).Steady := by
  unfold storeOf
  split
  · exact ⟨rfl, trivial⟩
  · exact ⟨rfl, trivial⟩

/-- A built index has no records, unless it was given a store that has some. -/
theorem build_fresh {parts : IndexParts} {now : Instant} (built : build c parts now = .ok w)
    (store : ∀ store, parts.store = some store → store.isEmpty = true ∧ store.Steady) :
    ∃ vectors : VectorIndex, w.state = { vectors } ∧ vectors.store.isEmpty = true ∧
      vectors.store.Steady :=
  build_store (P := fun s => s.isEmpty = true ∧ s.Steady) built store (storeOf_fresh _)

theorem build_mirroring {parts : IndexParts} {now : Instant} (built : build c parts now = .ok w)
    (store : ∀ store, parts.store = some store → store.isEmpty = true ∧ store.Steady) :
    Mirroring c.chunking vec w.state := by
  obtain ⟨vectors, state, empty, steady⟩ := build_fresh built store
  rw [state]
  exact .empty (VectorStore.get?_isEmpty empty) steady

theorem Reflecting.process (h : Reflecting c registered changes vec w)
    (apart : Seed.Apart (seedsOf registered c.pipeline.snippetChars changes))
    (nodes : NodesApart registered changes) {request : Request}
    (known : ∀ change, request = .index change → change ∈ changes) :
    Reflecting c registered changes vec (w.process request).2 := by
  have running := h.toRunning.process apart known
  obtain ⟨⟨rfl, rfl, cached, tracked⟩, mirroring, deterministic⟩ := h
  have processed := w.process_processed known cached
  exact ⟨running, mirroring.effect tracked apart nodes deterministic processed.effect,
    processed.embedder.symm ▸ deterministic⟩

theorem Reflecting.perform (h : Reflecting c registered changes vec w)
    (apart : Seed.Apart (seedsOf registered c.pipeline.snippetChars changes))
    (nodes : NodesApart registered changes) {op : Operation}
    (known : ∀ change, op = .index change → change ∈ changes)
    (provided : ∀ e, op = .provider e → e.Deterministic vec) :
    Reflecting c registered changes vec (w.perform op) := by
  have running := h.toRunning.perform apart known
  cases op with
  | index change =>
      refine h.process apart nodes fun other same => ?_
      cases same
      exact known change rfl
  | remove path => exact h.process apart nodes fun change same => by cases same
  | feedback id signal =>
      obtain ⟨feedback, after⟩ := w.perform_feedback id signal
      rw [after] at running ⊢
      exact ⟨running, h.mirroring.withFeedback feedback, h.deterministic⟩
  | prune => exact ⟨running, h.mirroring.pruneStale h.tracked.consistent, h.deterministic⟩
  | clock now => exact ⟨running, h.mirroring, h.deterministic⟩
  | provider embedder => exact ⟨running, h.mirroring, provided embedder rfl⟩
  | outage write =>
      have same := w.state.vectors.failWrite_same write
      exact ⟨running, h.mirroring.withVectors same, h.deterministic⟩

end

/-- Along every run with a deterministic embedder, also past passes that fail, each file lists as
    embedded the symbols that are selected of it; exactly these have a record, whose vector is that
    of their text and whose metadata are theirs. -/
theorem run_mirrored {c : IndexConfig} {parts : IndexParts} {now : Instant} {w : CodeIndex}
    (built : build c parts now = .ok w) (ops : List Operation)
    (apart : Seed.Apart (seedsOf parts.registered c.pipeline.snippetChars (changesOf ops)))
    (nodes : NodesApart parts.registered (changesOf ops)) {vec : String → Vector}
    (embedder : w.embedder.Deterministic vec)
    (providers : ∀ e, .provider e ∈ ops → e.Deterministic vec)
    (store : ∀ store, parts.store = some store → store.isEmpty = true ∧ store.Steady) :
    Mirrored c.chunking vec (w.performAll ops).state ∧
      ∀ path, ((w.performAll ops).state.embeddedOf path).length ≤ c.chunking.maxEmbeddings := by
  have start : Reflecting c parts.registered (changesOf ops) vec w :=
    ⟨.build built _, build_mirroring built store, embedder⟩
  have run : Reflecting c parts.registered (changesOf ops) vec (w.performAll ops) := by
    refine List.foldlRecOn (motive := Reflecting c parts.registered (changesOf ops) vec) ops _ start
      fun before reflecting op inside => ?_
    refine reflecting.perform apart nodes (fun change same => ?_) fun e same => ?_
    · exact mem_changesOf (same ▸ inside)
    · exact providers e (same ▸ inside)
  exact ⟨run.mirroring.toMirrored, run.mirroring.few⟩

theorem shortRun_nodesApart : NodesApart Language.all (changesOf shortRun) := by
  have known : nodeTexts Language.all (changesOf shortRun) ⊆ ["f()", "f", "f(x)"] := by
    decide +kernel
  have distinct : (["f()", "f", "f(x)"].map Digest.contentHash).Nodup := by decide +kernel
  intro a ha b hb same
  exact List.inj_on_of_nodup_map distinct (known ha) (known hb) same

theorem constantEmbedder_deterministic :
    constantEmbedder.Deterministic fun _ => List.replicate 8 1 := by
  intro texts vectors embedded _ _
  exact (Except.ok.inj embedded).symm

theorem shortRun_mirrored :
    Mirrored {} (fun _ => List.replicate 8 1) (smallIndex.performAll shortRun).state ∧
      ∀ path, ((smallIndex.performAll shortRun).state.embeddedOf path).length ≤ 256 := by
  have embedder : smallIndex.embedder = constantEmbedder := (build_ok build_small).2.2.2.2.2.2
  exact run_mirrored build_small shortRun shortRun_apart shortRun_nodesApart
    (embedder.symm ▸ constantEmbedder_deterministic)
    (fun e provided => by simp [shortRun] at provided) (fun store given => by cases given)

end CodeIndex

end CodeSearch
