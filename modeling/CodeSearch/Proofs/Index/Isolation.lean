import CodeSearch.Proofs.Index.Interleaving
import CodeSearch.Proofs.Index.References

/-! # Files do not disturb each other

All files share the table of symbols, the names and the store of vectors, and what is written or
dropped there is told by its id alone. Still a pass changes nothing that is held of another path: its
ids are hashes of seeds with its own path, and no two seeds collide. What is removed leaves nothing
behind, and as no pass keeps a lock behind its end, the removal of a file always comes to its end.
-/

namespace CodeSearch

open Time (Instant)

namespace IndexState

/-! ## What is held of a path -/

/-- From one state to another, nothing changes of what is held of a path. -/
structure Untouched (path : String) (s t : IndexState) : Prop extends s.SameAt path t where
  held : ∀ id symbol, symbol.unit.path = path →
    (t.symbol? id = some symbol ↔ s.symbol? id = some symbol)
  names : ∀ key, ∀ id ∈ s.idsOf path, (id ∈ found t.byName key ↔ id ∈ found s.byName key)

/-- From one state to another, all is dropped that was held of a path. -/
structure Gone (path : String) (s t : IndexState) : Prop where
  unit : t.unit? path = none
  symbols : ∀ id symbol, t.symbol? id = some symbol → symbol.unit.path ≠ path
  records : ∀ id r, t.vectors.get? id = some r → r.metadata.path ≠ path ∧ id ∉ s.idsOf path
  names : ∀ key, ∀ id ∈ found t.byName key, id ∉ s.idsOf path

section

variable {s t : IndexState} {path : String}

theorem Untouched.of_sameAt (same : s.SameAt path t) (before : s.Consistent) (after : t.Consistent) :
    s.Untouched path t := by
  have held (id : SymbolId) (symbol : Symbol) (here : symbol.unit.path = path) :
      t.symbol? id = some symbol ↔ s.symbol? id = some symbol := by
    constructor
    · intro heldThen
      have own : symbol.id = id := after.ownId id symbol heldThen
      have listed : symbol ∈ s.symbolsOf path :=
        same.symbols ▸ after.mem_symbolsOf.mpr ⟨own.symm ▸ heldThen, here⟩
      exact own ▸ (before.mem_symbolsOf.mp listed).1
    · intro heldBefore
      have own : symbol.id = id := before.ownId id symbol heldBefore
      have listed : symbol ∈ t.symbolsOf path :=
        same.symbols.symm ▸ before.mem_symbolsOf.mpr ⟨own.symm ▸ heldBefore, here⟩
      exact own ▸ (after.mem_symbolsOf.mp listed).1
  refine ⟨same, held, fun key id inside => ?_⟩
  obtain ⟨symbol, heldBefore, here⟩ := before.mem_idsOf.mp inside
  have heldThen := (held id symbol here).mpr heldBefore
  rw [after.found, before.found, heldBefore, heldThen]

/-- No id of a path is held under another path after the removal. -/
theorem Consistent.removeUnit_ids (consistent : s.Consistent) {id : SymbolId} {symbol : Symbol}
    (held : (s.removeUnit path).2.symbol? id = some symbol) :
    symbol.unit.path ≠ path ∧ id ∉ s.idsOf path := by
  obtain ⟨before, elsewhere⟩ := (symbol?_removeUnit consistent path id symbol).mp held
  refine ⟨elsewhere, fun inside => ?_⟩
  obtain ⟨other, heldBefore, here⟩ := consistent.mem_idsOf.mp inside
  rw [before] at heldBefore
  cases heldBefore
  exact elsewhere here

theorem Placed.gone_removeUnit (placed : s.Placed) (consistent : s.Consistent) (path : String) :
    s.Gone path (s.removeUnit path).2 := by
  refine ⟨?unit, fun id symbol held => (consistent.removeUnit_ids held).1, fun id r held => ?_,
    fun key id inside => ?_⟩
  case unit => exact (unit?_removeUnit s path path).trans (if_pos rfl)
  · obtain ⟨symbol, heldSymbol, -, label⟩ := (placed.removeUnit consistent path).place id r held
    obtain ⟨elsewhere, fresh⟩ := consistent.removeUnit_ids heldSymbol
    exact ⟨label ▸ elsewhere, fresh⟩
  · obtain ⟨symbol, held, -⟩ := ((consistent.removeUnit path).found key id).mp inside
    exact (consistent.removeUnit_ids held).2

end

end IndexState

/-! ## Free locks -/

namespace PathLocks

/-- No pass uses a lock. -/
structure Free (l : PathLocks) : Prop where
  distinct : (Keyed.keys l.queues).Nodup
  idle : ∀ number, l.queue number = []

/-- One pass uses a lock, and no other one any. -/
structure Sole (l : PathLocks) (number pass : Nat) : Prop where
  distinct : (Keyed.keys l.queues).Nodup
  queue : ∀ other, l.queue other = if other = number then [pass] else []

variable {l : PathLocks}

theorem Free.request (h : l.Free) (path : String) (pass : Nat) :
    (l.request path pass).2.Sole (l.request path pass).1 pass := by
  unfold PathLocks.request
  cases Keyed.get? l.numberOf path with
  | some number =>
      refine ⟨Keyed.nodup_put h.distinct _ _, fun other => ?_⟩
      simp only [queue_put, h.idle, List.nil_append]
  | none =>
      refine ⟨Keyed.nodup_put h.distinct _ _, fun other => ?_⟩
      simp only [queue_put, h.idle]

theorem Sole.holds {number pass : Nat} (h : l.Sole number pass) : l.holds number pass = true := by
  rw [holds_iff, h.queue, if_pos rfl]
  rfl

theorem Sole.release {number pass : Nat} (h : l.Sole number pass) :
    (l.release number pass).Free := by
  refine ⟨Keyed.nodup_put h.distinct _ _, fun other => ?_⟩
  rw [PathLocks.release, queue_put, h.queue, h.queue]
  by_cases same : other = number
  · simp [same]
  · simp [same]

theorem Free.prune (h : l.Free) : l.prune.2.Free := by
  have none : (l.queues.filter fun e => !e.2.isEmpty) = [] := by
    rw [List.filter_eq_nil_iff]
    rintro ⟨number, passes⟩ inside waiting
    have idle := h.idle number
    rw [queue, Keyed.get?_of_mem h.distinct inside] at idle
    cases idle
    cases waiting
  have queues : l.prune.2.queues = [] := none
  refine ⟨queues.symm ▸ List.nodup_nil, fun number => ?_⟩
  rw [queue, queues]
  rfl

end PathLocks

/-! ## A pass alone -/

theorem Phase.ended_of_left {phase : Phase} (none : phase.left = 0) :
    ∃ result, phase = .ended result := by
  cases phase with
  | ended result => exact ⟨result, rfl⟩
  | _ => cases none

namespace Pass

/-- How the locks stand while a pass goes on alone: it uses one from its first step to its end. -/
inductive Uses (w : CodeIndex) (p : Pass) : Prop where
  | begun (request : Request) (standing : p.phase = .begun request) (free : w.locks.Free)
  | holder (number : Nat) (lock : p.lock = some number) (sole : w.locks.Sole number p.number)
      (queued : ∀ request, p.phase ≠ .begun request) (goesOn : ∀ result, p.phase ≠ .ended result)
  | ended (result : Except PassError Ack) (standing : p.phase = .ended result)
      (free : w.locks.Free)

/-- A pass that goes on alone. -/
structure Alone (request : Request) (w : CodeIndex) (p : Pass) : Prop where
  path : p.path = request.path
  asked : p.phase.Asked w.registered request
  uses : p.Uses w

section

variable {w : CodeIndex} {request : Request} {p : Pass}

theorem Alone.start (free : w.locks.Free) (request : Request) :
    (start w request).2.Alone request (start w request).1 :=
  ⟨rfl, rfl, .begun request rfl free⟩

theorem Alone.step (h : p.Alone request w) : (p.step w).2.Alone request (p.step w).1 := by
  have taken := p.step_taken w h.path h.asked
  cases h.uses with
  | begun r standing free =>
      have asked := h.asked
      rw [standing] at asked
      cases asked
      simp only [Pass.step, standing]
      refine ⟨h.path, rfl, .holder _ rfl (free.request p.path p.number) ?_ ?_⟩
      · exact fun request standing => by cases standing
      · exact fun result standing => by cases standing
  | ended result standing free =>
      simp only [Pass.step, standing]
      exact ⟨h.path, h.asked, .ended result standing free⟩
  | holder number lock sole queued goesOn =>
      have stays {after : CodeIndex} {phase : Phase} (locks : after.locks = w.locks)
          (role : phase.role = .working ∨ ∃ outcome, phase.role = .settled outcome) :
          (p.goOn after phase).2.Uses (p.goOn after phase).1 := by
        refine .holder number lock (locks.symm ▸ sole) ?_ ?_
        · rintro r rfl
          rcases role with role | ⟨_, role⟩ <;> cases role
        · rintro result rfl
          rcases role with role | ⟨_, role⟩ <;> cases role
      generalize p.step w = after at taken ⊢
      cases taken with
      | idle => exact h
      | queued standing => exact absurd standing (queued request)
      | admitted phase _ _ _ role asked => exact ⟨h.path, asked, stays rfl (.inl role)⟩
      | worked after phase _ quiet role asked =>
          exact ⟨h.path, quiet.registered.symm ▸ asked, stays quiet.locks (.inl role)⟩
      | settled after phase outcome _ elsewhere _ role asked =>
          exact ⟨h.path, elsewhere.registered.symm ▸ asked, stays elsewhere.locks (.inr ⟨_, role⟩)⟩
      | finished after result quiet =>
          refine ⟨h.path, trivial, .ended result rfl ?_⟩
          simp only [Pass.finish, lock, Option.elim_some, quiet.locks]
          exact sole.release

/-- Nobody keeps it from its lock, so that every step takes it nearer to its end. -/
theorem Alone.nearer (h : p.Alone request w) :
    p.phase.left = 0 ∨ (p.step w).2.phase.left < p.phase.left := by
  cases h.uses with
  | ended result standing => exact .inl (congrArg Phase.left standing)
  | begun r standing =>
      refine .inr (p.step_nearer w (fun result => ?_) fun r waits => ?_)
      · rw [standing]
        nofun
      · rw [standing] at waits
        cases waits
  | holder number lock sole queued goesOn =>
      refine .inr (p.step_nearer w goesOn fun _ _ => ?_)
      simp only [holdsLock, lock, Option.any_some]
      exact sole.holds

theorem Alone.repeat (h : p.Alone request w) (n : Nat) :
    (n.repeat (stepIf fun _ => true) (w, p)).2.Alone request
        (n.repeat (stepIf fun _ => true) (w, p)).1 ∧
      ((n.repeat (stepIf fun _ => true) (w, p)).2.phase.left = 0 ∨
        (n.repeat (stepIf fun _ => true) (w, p)).2.phase.left + n ≤ p.phase.left) := by
  induction n with
  | zero => exact ⟨h, .inr (Nat.le_refl _)⟩
  | succ n ih =>
      have next : (n + 1).repeat (stepIf fun _ => true) (w, p) =
          (n.repeat (stepIf fun _ => true) (w, p)).2.step
            (n.repeat (stepIf fun _ => true) (w, p)).1 := rfl
      generalize n.repeat (stepIf fun _ => true) (w, p) = standing at ih next
      rw [next]
      obtain ⟨alone, left⟩ := ih
      refine ⟨alone.step, ?_⟩
      have stays (none : standing.2.phase.left = 0) :
          (standing.2.step standing.1).2.phase.left = 0 := by
        obtain ⟨result, ended⟩ := Phase.ended_of_left none
        simp only [Pass.step, ended]
        rfl
      rcases left with none | left
      · exact .inl (stays none)
      · rcases alone.nearer with none | nearer
        · exact .inl (stays none)
        · exact .inr (by omega)

end

end Pass

namespace CodeIndex

open IndexState (Placed)

section

variable {w : CodeIndex}

/-- A pass that goes on alone comes to its end, and uses no lock any more. -/
theorem process_free (free : w.locks.Free) (request : Request) :
    (w.process request).2.locks.Free := by
  obtain ⟨alone, left⟩ := (Pass.Alone.start free request).repeat Pass.maxSteps
  have ran : (w.process request).2 =
      (Pass.maxSteps.repeat (Pass.stepIf fun _ => true) (Pass.start w request)).1 := rfl
  rw [ran]
  rw [show ((Pass.start w request).1, (Pass.start w request).2) = Pass.start w request from rfl]
    at alone left
  generalize Pass.maxSteps.repeat (Pass.stepIf fun _ => true) (Pass.start w request) = last
    at alone left ⊢
  have none : last.2.phase.left = 0 := by
    rcases left with none | before
    · exact none
    · have bound : last.2.phase.left + 12 ≤ 12 := before
      omega
  obtain ⟨result, standing⟩ := Phase.ended_of_left none
  cases alone.uses with
  | begun r other => exact absurd (standing.symm.trans other) nofun
  | holder number lock sole queued goesOn => exact absurd standing (goesOn result)
  | ended _ _ free => exact free

theorem perform_free (free : w.locks.Free) (op : Operation) : (w.perform op).locks.Free := by
  cases op with
  | index change => exact process_free free (.index change)
  | remove path => exact process_free free (.remove path)
  | feedback id signal =>
      obtain ⟨feedback, after⟩ := w.perform_feedback id signal
      rw [after]
      exact free
  | prune => exact free.prune
  | clock | provider | outage => exact free

theorem performAll_free (free : w.locks.Free) (ops : List Operation) :
    (w.performAll ops).locks.Free :=
  List.foldlRecOn (motive := fun w : CodeIndex => w.locks.Free) ops _ free
    fun _ free op _ => perform_free free op

/-- When no pass uses a lock, a removal takes effect. -/
theorem removeFile_free (free : w.locks.Free) (path : String) :
    (∃ generation, (w.removeFile path).1 =
        .ok ⟨path, none, generation, (w.state.removeUnit path).1.elim .notIndexed .removed⟩) ∧
      (w.removeFile path).2.state = (w.state.removeUnit path).2 := by
  let begun := Pass.start w (.remove path)
  let queued := begun.2.queueUp begun.1 (.remove path)
  let admitted := queued.2.goOn queued.1 .removing
  let removed := admitted.2.remove admitted.1
  let outcome : PassOutcome := (w.state.removeUnit path).1.elim .notIndexed .removed
  let ended := removed.2.report
    { removed.1 with files := removed.1.files.markRemoved path } none outcome
  have queues : begun.2.step begun.1 = queued := rfl
  have holds : queued.2.holdsLock queued.1 = true := (free.request path w.passes).holds
  have latest : queued.2.isLatest queued.1 = true := by
    have current : (w.files.begin path).2.generation? path = some (w.files.begin path).1 :=
      (FileTable.generation?_begin w.files path path).trans (if_pos rfl)
    exact FileTable.isCurrent_iff.mpr current
  have admits : queued.2.step queued.1 = admitted := by
    have waits : queued.2.phase = .waiting (.remove path) := rfl
    simp only [Pass.step, waits, holds, latest]
    rfl
  have removes : admitted.2.step admitted.1 = removed := rfl
  have reports : removed.2.step removed.1 = ended := rfl
  have stays : ended.2.step ended.1 = ended := rfl
  have last : Pass.maxSteps.repeat (Pass.stepIf fun _ => true) begun = ended := by
    simp only [Pass.maxSteps, Nat.repeat, Pass.stepIf, if_true, queues, admits, removes, reports,
      stays]
  have ran : w.removeFile path = (ended.2.result, ended.1) := by
    rw [← last]
    rfl
  rw [ran]
  exact ⟨⟨_, rfl⟩, rfl⟩

end

end CodeIndex

/-! ## Passes over other paths -/

namespace Session

/-- What happens next is no step of a pass over a path. -/
def Spares (path : String) (s : Session) : Happening → Prop
  | .move (.step number) => ∀ request p, s.Has number request p → p.path ≠ path
  | _ => True

/-- What passes do to the files, while any number of them go on. -/
structure Isolated (changes : List FileChange) (s : Session) : Prop where
  /-- As long as no pass over a path takes a step, nothing of it is touched, whatever else happens. -/
  others : ∀ path happenings, incoming happenings ⊆ changes →
    Along Session.happen (Spares path) s happenings →
      s.index.state.Untouched path (s.happenAll happenings).index.state
  removal : ∀ number request p, s.Has number request p → p.phase = .removing →
    s.index.state.Gone p.path (s.step number).index.state

section

variable {c : IndexConfig} {registered : List Language} {changes : List FileChange} {s : Session}
variable {path : String}

theorem Secluded.sameAt_around (h : Secluded c registered changes s) {op : Operation}
    (besides : op.Aside ∨ op = .prune) (path : String) :
    s.index.state.SameAt path (s.around op).index.state := by
  cases op with
  | index | remove => rcases besides with aside | prune <;> contradiction
  | feedback id signal =>
      obtain ⟨feedback, after⟩ := s.index.perform_feedback id signal
      rw [Session.around, after]
      exact ⟨rfl, rfl, fun _ _ => rfl⟩
  | clock | provider => exact .refl path s.index.state
  | outage write =>
      exact ⟨rfl, rfl, fun id _ => s.index.state.vectors.store.get?_failWrites [write] id⟩
  | prune => exact h.placed.sameAt_pruneStale h.tracked.consistent path

theorem Secluded.sameAt_happen (h : Secluded c registered changes s)
    (apart : Seed.Apart (seedsOf registered c.pipeline.snippetChars changes)) {happening : Happening}
    (spares : s.Spares path happening) :
    s.index.state.SameAt path (s.happen happening).index.state := by
  cases happening with
  | prune => exact h.sameAt_around (.inr rfl) path
  | move m =>
      rw [Session.happen]
      rcases s.begin_or_step_or_around m with ⟨request, rfl⟩ | ⟨number, rfl⟩ | ⟨op, aside, moved⟩
      · exact .refl path s.index.state
      · rw [Session.move]
        cases found : Keyed.get? s.passes number with
        | none =>
            rw [Session.step, found]
            exact .refl path s.index.state
        | some entry =>
            rw [step_eq found]
            exact h.sameAt_step apart found (spares entry.1 entry.2 found).symm
      · rw [moved]
        exact h.sameAt_around (.inl aside) path

theorem Secluded.isolated (h : Secluded c registered changes s)
    (apart : Seed.Apart (seedsOf registered c.pipeline.snippetChars changes)) :
    s.Isolated changes := by
  constructor
  case others =>
    intro path happenings known spared
    have same : s.index.state.SameAt path (s.happenAll happenings).index.state := by
      induction happenings generalizing s with
      | nil => exact .refl path s.index.state
      | cons happening rest ih =>
          have next := h.happen apart fun change same => known (mem_incoming (same ▸ List.mem_cons_self))
          have later : incoming rest ⊆ changes := fun change inside => known <| by
            obtain ⟨other, listed, comes⟩ := List.mem_filterMap.mp inside
            exact List.mem_filterMap.mpr ⟨other, List.mem_cons_of_mem _ listed, comes⟩
          exact (h.sameAt_happen apart spared.1).trans (ih next later spared.2)
    exact .of_sameAt same h.tracked.consistent (h.happenAll apart known).tracked.consistent
  case removal =>
    intro number request p held removing
    have state : (s.step number).index.state = (s.index.state.removeUnit p.path).2 := by
      rw [step_eq held]
      simp only [advanced, Pass.step, removing]
      rfl
    rw [state]
    exact h.placed.gone_removeUnit h.tracked.consistent p.path

end

end Session

namespace CodeIndex

variable {c : IndexConfig} {parts : IndexParts} {now : Instant} {w : CodeIndex}

theorem performAll_secluded (built : build c parts now = .ok w)
    (empty : ∀ store, parts.store = some store → store.isEmpty = true) {changes : List FileChange}
    (apart : Seed.Apart (seedsOf parts.registered c.pipeline.snippetChars changes))
    {ops : List Operation} (known : changesOf ops ⊆ changes) :
    (Session.start (w.performAll ops)).Secluded c parts.registered changes := by
  obtain ⟨happenings, same, ran⟩ := w.performAll_undergo ops
  have secluded := (build_secluded built empty changes).happenAll apart (same.symm ▸ known)
  rw [← ran]
  have none (number : Nat) (request : Request) (p : Pass) :
      ¬(Session.start (w.undergo happenings)).Has number request p := nofun
  exact ⟨⟨secluded.sameConfig, secluded.sameRegistered, secluded.cached, secluded.tracked⟩,
    secluded.placed, secluded.numbered, fun number request p held => absurd held (none number request p),
    fun number request p held => absurd held (none number request p)⟩

/-- Files do not disturb each other. A pass over one path, whatever becomes of it, touches nothing
    that is held of another path, and this is true of each of its steps also when other passes go
    on. The removal of a file takes effect and leaves nothing of it. -/
theorem files_isolated (built : build c parts now = .ok w)
    (empty : ∀ store, parts.store = some store → store.isEmpty = true) {changes : List FileChange}
    (apart : Seed.Apart (seedsOf parts.registered c.pipeline.snippetChars changes))
    {ops : List Operation} (known : changesOf ops ⊆ changes) :
    (∀ request, (∀ change, request = .index change → change ∈ changes) →
      ∀ path, path ≠ request.path → (w.performAll ops).state.Untouched path
        ((w.performAll ops).process request).2.state) ∧
    (∀ path, (∃ generation outcome, ((w.performAll ops).removeFile path).1 =
        .ok ⟨path, none, generation, outcome⟩ ∧
          (outcome = .notIndexed ∨ ∃ symbols, outcome = .removed symbols)) ∧
      (w.performAll ops).state.Gone path ((w.performAll ops).removeFile path).2.state) ∧
    ∀ happenings, incoming happenings ⊆ changes →
      ((Session.start (w.performAll ops)).happenAll happenings).Isolated changes := by
  have secluded := performAll_secluded built empty apart known
  have consistent : (w.performAll ops).state.Consistent := secluded.tracked.consistent
  have free : (w.performAll ops).locks.Free := by
    refine performAll_free ?_ ops
    rw [build_locks built]
    exact ⟨List.nodup_nil, fun _ => rfl⟩
  refine ⟨fun request asked path different => ?_, fun path => ⟨?_, ?_⟩, fun happenings inside => ?_⟩
  · have running := secluded.toRunning.process apart asked
    have placed : (w.performAll ops).state.Placed := secluded.placed
    obtain ⟨config, registered, cached, tracked⟩ := secluded.toRunning
    have processed := (w.performAll ops).process_processed asked (registered ▸ cached)
    rw [← config, ← registered] at tracked
    rw [← config, ← registered] at apart
    exact .of_sameAt (placed.sameAt_effect tracked apart processed.effect different) consistent
      running.tracked.consistent
  · obtain ⟨generation, reported⟩ := (removeFile_free free path).1
    refine ⟨generation, _, reported, ?_⟩
    cases ((w.performAll ops).state.removeUnit path).1 with
    | none => exact .inl rfl
    | some symbols => exact .inr ⟨symbols, rfl⟩
  · rw [(removeFile_free free path).2]
    exact secluded.placed.gone_removeUnit consistent path
  · exact (secluded.happenAll apart inside).isolated apart

/-- What is removed is the function, and the call stays that was indexed in the other file. -/
theorem callRun_isolated :
    ((smallIndex.performAll callRun).state.symbolsOf "b.py").length = 1 ∧
    (smallIndex.performAll callRun).state.Untouched "b.py"
      ((smallIndex.performAll callRun).process (.remove "a.py")).2.state ∧
    (smallIndex.performAll callRun).state.Gone "a.py"
      ((smallIndex.performAll callRun).removeFile "a.py").2.state := by
  obtain ⟨untouched, gone, -⟩ :=
    files_isolated build_small nofun callRun_apart (List.Subset.refl (changesOf callRun))
  have calls := congrArg List.length callRun_calls
  rw [List.length_map] at calls
  exact ⟨calls, untouched (.remove "a.py") nofun "b.py" (by decide), (gone "a.py").2⟩

end CodeIndex

end CodeSearch
