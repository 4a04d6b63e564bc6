import CodeSearch.Proofs.Index.Tracking

/-! # Runs

A run is any sequence of operations on a built index. Besides what its users do, the clock may
show any time, the embedder may behave in another way, and the store may refuse a write. Whatever
an operation does, the index stays consistent, so that nothing in it ever gets stale.
-/

namespace CodeSearch

open Time (Instant)

/-- What is done to an index, or happens around it. -/
inductive Operation where
  | index (change : FileChange)
  | remove (path : String)
  | feedback (id : SymbolId) (signal : Signal)
  | prune
  /-- The clock shows another time. -/
  | clock (now : Instant)
  /-- The embedder behaves in another way from now on. -/
  | provider (embedder : Embedder)
  /-- The store refuses one of the next writes, if it is one that does. -/
  | outage (write : Nat)
  deriving Inhabited

/-- The changes that a run brings in. -/
def changesOf (ops : List Operation) : List FileChange :=
  ops.filterMap fun
    | .index change => some change
    | _ => none

theorem mem_changesOf {ops : List Operation} {change : FileChange} (h : .index change ∈ ops) :
    change ∈ changesOf ops :=
  List.mem_filterMap.mpr ⟨.index change, h, rfl⟩

/-- The vectors with a store that refuses one of the next writes. -/
def VectorIndex.failWrite (i : VectorIndex) (write : Nat) : VectorIndex :=
  { i with store := i.store.failWrites [write] }

namespace CodeIndex

/-- The index after an operation, be it a success or not. -/
def perform (w : CodeIndex) : Operation → CodeIndex
  | .index change => (w.indexChange change).2
  | .remove path => (w.removeFile path).2
  | .feedback id signal =>
    match w.recordFeedback id signal with
    | .ok w => w
    | .error _ => w
  | .prune => w.pruneStale.2
  | .clock now => { w with now }
  | .provider embedder => { w with embedder }
  | .outage write => { w with state := { w.state with vectors := w.state.vectors.failWrite write } }

def performAll (w : CodeIndex) (ops : List Operation) : CodeIndex :=
  ops.foldl perform w

/-- Feedback changes nothing but what is known of the use of symbols. -/
theorem perform_feedback (w : CodeIndex) (id : SymbolId) (signal : Signal) :
    ∃ feedback, w.perform (.feedback id signal) = { w with state := { w.state with feedback } } := by
  unfold perform
  cases known : w.symbol id with
  | error cause =>
      simp only [recordFeedback, known]
      exact ⟨w.state.feedback, rfl⟩
  | ok symbol =>
      simp only [recordFeedback, known]
      exact ⟨_, rfl⟩

/-- The vectors that an index is built with. -/
def initialVectors (c : IndexConfig) (parts : IndexParts) : VectorIndex :=
  VectorIndex.withOverfetch { store := parts.store.getD (storeOf c.vector) } c.vector.overfetchFactor
    c.vector.maxOverfetchRounds

/-- A built index is empty, and has the configuration and the languages that it was built with. -/
theorem build_ok {c : IndexConfig} {parts : IndexParts} {now : Instant} {w : CodeIndex}
    (built : build c parts now = .ok w) :
    w.config = c ∧ w.registered = parts.registered ∧
      w.state = { vectors := initialVectors c parts } ∧
      w.cache = .ofCapacity (parts.cacheCapacity.getD c.cache.capacity) ∧
      w.files = {} ∧ w.locks = {} ∧
      w.embedder = parts.embedder.getD (Embedder.hashing c.vector.dimension) := by
  unfold build at built
  cases valid : c.validate with
  | error cause =>
      rw [valid] at built
      cases built
  | ok _ =>
      rw [valid] at built
      simp only [bind, Except.bind, pure, Except.pure, throw, throwThe, MonadExceptOf.throw] at built
      split at built
      · cases built
      · split at built
        · cases built
        · cases built
          exact ⟨rfl, rfl, rfl, rfl, rfl, rfl, rfl⟩

/-- What holds all along a run with the given changes. -/
structure Running (c : IndexConfig) (registered : List Language) (changes : List FileChange)
    (w : CodeIndex) : Prop where
  sameConfig : w.config = c
  sameRegistered : w.registered = registered
  cached : Cached registered changes w.cache
  tracked : Tracked registered c.pipeline.snippetChars changes w.state

section

variable {c : IndexConfig} {registered : List Language} {changes : List FileChange} {w : CodeIndex}

theorem Running.build {parts : IndexParts} {now : Instant} (built : build c parts now = .ok w)
    (changes : List FileChange) : Running c parts.registered changes w := by
  obtain ⟨config, registered, state, cache, -, -⟩ := build_ok built
  refine ⟨config, registered, ?_, ?_⟩
  · rw [cache]
    exact .empty _
  · rw [state]
    exact .empty _

theorem Running.process (h : Running c registered changes w)
    (apart : Seed.Apart (seedsOf registered c.pipeline.snippetChars changes)) {request : Request}
    (known : ∀ change, request = .index change → change ∈ changes) :
    Running c registered changes (w.process request).2 := by
  obtain ⟨rfl, rfl, cached, tracked⟩ := h
  have processed := w.process_processed known cached
  exact ⟨processed.config, processed.registered, processed.cached,
    tracked.effect apart processed.effect⟩

theorem Running.perform (h : Running c registered changes w)
    (apart : Seed.Apart (seedsOf registered c.pipeline.snippetChars changes)) {op : Operation}
    (known : ∀ change, op = .index change → change ∈ changes) :
    Running c registered changes (w.perform op) := by
  cases op with
  | index change =>
      refine h.process apart fun other same => ?_
      cases same
      exact known change rfl
  | remove path => exact h.process apart fun change same => by cases same
  | feedback id signal =>
      obtain ⟨feedback, after⟩ := w.perform_feedback id signal
      rw [after]
      exact ⟨h.sameConfig, h.sameRegistered, h.cached, h.tracked.withFeedback feedback⟩
  | prune => exact ⟨h.sameConfig, h.sameRegistered, h.cached, h.tracked.pruneStale⟩
  | clock now => exact ⟨h.sameConfig, h.sameRegistered, h.cached, h.tracked⟩
  | provider embedder => exact ⟨h.sameConfig, h.sameRegistered, h.cached, h.tracked⟩
  | outage write => exact ⟨h.sameConfig, h.sameRegistered, h.cached, h.tracked.withVectors _⟩

theorem Running.performAll (h : Running c registered changes w)
    (apart : Seed.Apart (seedsOf registered c.pipeline.snippetChars changes)) {ops : List Operation}
    (known : changesOf ops ⊆ changes) : Running c registered changes (w.performAll ops) := by
  -- `apart` is of all changes of the run, so that ids differ across its versions too
  refine List.foldlRecOn (motive := Running c registered changes) ops _ h fun w running op inside => ?_
  refine running.perform apart fun change same => ?_
  exact known (mem_changesOf (same ▸ inside))

end

/-- Whatever is done to an index, its parts tell of each other what is true: every file is held
    under its path and lists symbols of its own version, every symbol is listed by one file, the
    names find exactly the symbols that have them, and the paths touched last are held. So every
    symbol passes the check of its version, and there is nothing to prune. -/
theorem run_consistent {c : IndexConfig} {parts : IndexParts} {now : Instant} {w : CodeIndex}
    (built : build c parts now = .ok w) (ops : List Operation)
    (apart : Seed.Apart (seedsOf parts.registered c.pipeline.snippetChars (changesOf ops))) :
    (w.performAll ops).state.Consistent ∧
      (∀ symbol ∈ (w.performAll ops).state.allSymbols,
        (w.performAll ops).state.check symbol = .ok ()) ∧
      (w.performAll ops).pruneStale.1.symbols = 0 := by
  have running := (Running.build built (changesOf ops)).performAll apart (List.Subset.refl _)
  have consistent := running.tracked.consistent
  refine ⟨consistent, fun symbol held => consistent.accepts held, ?_⟩
  calc
    (w.performAll ops).pruneStale.1.symbols = (w.performAll ops).state.pruneStale.1 := rfl
    _ = 0 := by rw [IndexState.pruneStale_eq consistent]

/-! ## A short run -/

/-- A file whose text begins with the name of its only function. -/
def oneFunction (text : String) : FileChange :=
  let whole : Syntax.Span := ⟨0, text.utf8ByteSize, 1, 1⟩
  let name : Syntax.Concrete :=
    .node { kind := "identifier", field := some "name", span := ⟨0, 1, 1, 1⟩ } []
  let function : Syntax.Concrete := .node { kind := "function_definition", span := whole } [name]
  { path := "a.py"
    source := { text, trees := [(.python, .node { kind := "module", span := whole } [function])] } }

/-- A file is indexed and changed, with a pruning in between. -/
def shortRun : List Operation :=
  [.index (oneFunction "f()"), .prune, .index (oneFunction "f(x)")]

theorem shortRun_apart : Seed.Apart (seedsOf Language.all 2000 (changesOf shortRun)) := by
  have distinct : (((Seed.ordinals 2).map fun n =>
      (⟨"a.py", .function, "f", n⟩ : Seed)).map Seed.digest).Nodup := by decide +kernel
  have known : seedsOf Language.all 2000 (changesOf shortRun) ⊆
      (Seed.ordinals 2).map fun n => (⟨"a.py", .function, "f", n⟩ : Seed) := by decide +kernel
  exact (Seed.Apart.of_nodup distinct).mono known

def smallConfig : IndexConfig :=
  { vector := { dimension := 8 } }

/-- Embedding every text by the same vector. -/
def constantEmbedder : Embedder :=
  { model := "constant", dimension := 8
    embed := fun texts => .ok (texts.map fun _ => List.replicate 8 1) }

def smallParts : IndexParts :=
  { embedder := some constantEmbedder }

def smallIndex : CodeIndex :=
  (build smallConfig smallParts default).toOption.getD default

theorem build_getD {c : IndexConfig} {parts : IndexParts} {now : Instant}
    (built : (build c parts now).isOk = true) :
    build c parts now = .ok ((build c parts now).toOption.getD default) := by
  cases result : build c parts now with
  | error cause =>
      rw [result] at built
      cases built
  | ok w => rfl

theorem build_small : build smallConfig smallParts default = .ok smallIndex :=
  build_getD (by decide +kernel)

theorem shortRun_consistent : (smallIndex.performAll shortRun).state.Consistent ∧
    (∀ symbol ∈ (smallIndex.performAll shortRun).state.allSymbols,
      (smallIndex.performAll shortRun).state.check symbol = .ok ()) ∧
    (smallIndex.performAll shortRun).pruneStale.1.symbols = 0 :=
  run_consistent build_small shortRun shortRun_apart

end CodeIndex

end CodeSearch
