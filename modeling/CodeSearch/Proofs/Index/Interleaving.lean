import CodeSearch.Proofs.Index.Placement
import CodeSearch.Proofs.Index.Uncommitted

/-! # Passes that go on at once

Any number of passes go on over one index, which may be pruned meanwhile. The lock of a path keeps
all others off it, and what is done to other paths leaves alone what a pass looks at. So what a pass
has at hand stays made for the index as it is, but for the time and the embedder, and it commits
what it would commit if it went on alone.
-/

namespace CodeSearch

open Syntax (Parsed)
open Time (Instant)

/-! ## What a pass finds -/

/-- A pass over a path finds the same in another index, but for the time and the embedder. -/
structure CodeIndex.SameAt (path : String) (w v : CodeIndex) : Prop where
  config : v.config = w.config
  registered : v.registered = w.registered
  state : w.state.SameAt path v.state

/-- The index at another time and with another embedder. -/
def CodeIndex.under (w : CodeIndex) (now : Instant) (embedder : Embedder) : CodeIndex :=
  { w with now, embedder }

/-! ## What a pass has at hand -/

section

variable {changes : List FileChange} {w v : CodeIndex} {request : Request}

/-- A task for an index is one for any other in which the languages are the same. -/
def Task.carry (t : Task w request) (registered : v.registered = w.registered) : Task v request where
  change := t.change
  language := t.language
  asked := t.asked
  resolved := registered ▸ t.resolved

theorem Task.path (t : Task w request) : t.change.path = request.path :=
  congrArg Request.path t.asked.symm

theorem Task.carry_job (t : Task w request) (same : w.SameAt request.path v) (now : v.now = w.now) :
    (t.carry same.registered).job = t.job := by
  have held : Pass.held? v t.change.path = Pass.held? w t.change.path := by
    rw [t.path, Pass.held?, Pass.held?, same.state.unit, same.state.symbols]
  simp only [Task.job, Task.carry, Pass.jobOf, Pass.nextUnit, held, now]

theorem Task.carry_plan (t : Task w request) (same : w.SameAt request.path v) (now : v.now = w.now)
    (parsed : Parsed) : (t.carry same.registered).plan parsed = t.plan parsed := by
  simp only [Task.plan, Task.extracted, t.carry_job same now, same.config]

/-- The records that stay are those of symbols that the file has embedded. -/
theorem Task.refreshed_eq (t : Task w request) (same : w.SameAt request.path v) (parsed : Parsed) :
    Pass.refreshed v (t.plan parsed).kept = Pass.refreshed w (t.plan parsed).kept := by
  refine List.filterMap_congr fun s inside => ?_
  have embedded : s.id ∈ t.job.embedded := (Plan.mem_kept.mp inside).2.2
  have listed : s.id ∈ w.state.embeddedOf request.path := by
    rw [← t.path, IndexState.embeddedOf, ← t.embedded_eq]
    exact embedded
  rw [same.state.records s.id listed]

/-- What a pass at work has at hand for an index, it has at hand for any other in which it finds the
    same. -/
theorem Stands.carry (same : w.SameAt request.path v) (now : v.now = w.now)
    (embedder : v.embedder = w.embedder) {phase : Phase} (working : phase.role = .working)
    (stands : Stands changes w request w.state phase) : Stands changes v request v.state phase := by
  have read {t : Task w request} {parsed : Parsed}
      (h : Read w.registered changes t.job.unit.parseKey parsed) :
      Read v.registered changes (t.carry same.registered).job.unit.parseKey parsed := by
    rw [t.carry_job same now, same.registered]
    exact h
  have draft (d : Draft changes w request) :
      ∃ e : Draft changes v request, d.plan = e.plan ∧ d.records = e.records := by
    have accepted : Accepted v ((d.toTask.carry same.registered).plan d.parsed).toEmbed d.vectors := by
      rw [d.carry_plan same now, Accepted, embedder, same.config]
      exact d.accepted
    refine ⟨⟨d.toTask.carry same.registered, d.parsed, read d.read, d.vectors, accepted⟩,
      (d.carry_plan same now d.parsed).symm, ?_⟩
    simp only [Draft.records, Draft.fresh, Draft.plan, d.carry_plan same now,
      d.refreshed_eq same d.parsed]
  cases phase with
  | begun | waiting | confirming | marking | clearing | ended => cases working
  | admitted | removing => exact ⟨stands.1, rfl⟩
  | beforeParsing job | parsing job =>
      obtain ⟨⟨t, rfl⟩, -⟩ := stands
      exact ⟨⟨t.carry same.registered, (t.carry_job same now).symm⟩, rfl⟩
  | beforeExtracting job parsed | extracting job parsed =>
      obtain ⟨⟨t, rfl, known⟩, -⟩ := stands
      exact ⟨⟨t.carry same.registered, (t.carry_job same now).symm, read known⟩, rfl⟩
  | beforeEmbedding plan =>
      obtain ⟨⟨t, parsed, known, rfl⟩, -⟩ := stands
      exact ⟨⟨t.carry same.registered, parsed, read known, (t.carry_plan same now parsed).symm⟩, rfl⟩
  | embedding plan kept =>
      obtain ⟨⟨t, parsed, known, rfl⟩, rfl, -⟩ := stands
      exact ⟨⟨t.carry same.registered, parsed, read known, (t.carry_plan same now parsed).symm⟩,
        (t.refreshed_eq same parsed).symm, rfl⟩
  | beforeCommit plan records | committing plan records =>
      obtain ⟨⟨d, rfl, rfl⟩, -⟩ := stands
      exact ⟨draft d, rfl⟩

/-- A pass at work has changed nothing yet. -/
theorem Stands.unmoved {state : IndexState} {phase : Phase} (working : phase.role = .working)
    (stands : Stands changes w request state phase) : state = w.state := by
  cases phase with
  | begun | waiting | confirming | marking | clearing | ended => cases working
  | embedding => exact stands.2.2
  | _ => exact stands.2

end

/-! ## A pass that others leave alone -/

/-- What is true of a pass, whatever others do. -/
structure Pass.Sheltered (changes : List FileChange) (w : CodeIndex) (request : Request) (p : Pass) :
    Prop where
  path : p.path = request.path
  known : ∀ change, request = .index change → change ∈ changes
  asked : p.phase.Asked w.registered request
  /-- Until it ends, it keeps its place in the queue of its path. -/
  place : (∀ result, p.phase.role ≠ .ended result) → ∀ number, p.lock = some number →
    Keyed.get? w.locks.numberOf p.path = some number ∧ p.number ∈ w.locks.queue number
  holds : p.Active → p.holdsLock w = true
  /-- What it has at hand was made for the index as it is, at some time and with some embedder. -/
  atHand : p.phase.role = .working →
    ∃ now embedder, Stands changes (w.under now embedder) request w.state p.phase

/-- What a step of a pass does while others go on. -/
structure Pass.Proceeds (changes : List FileChange) (w : CodeIndex) (request : Request) (p : Pass)
    (taken : CodeIndex × Pass) : Prop where
  config : taken.1.config = w.config
  registered : taken.1.registered = w.registered
  cached : Cached w.registered changes taken.1.cache
  effect : ∃ now embedder, Effect changes (w.under now embedder) request taken.1.state
  atHand : taken.2.phase.role = .working →
    ∃ now embedder, Stands changes (taken.1.under now embedder) request taken.1.state
      taken.2.phase

section

variable {changes : List FileChange} {w after : CodeIndex} {request : Request} {p : Pass}

theorem Pass.Sheltered.lined (h : p.Sheltered changes w request) : p.Lined w :=
  ⟨h.place, h.holds⟩

theorem Pass.Sheltered.carry (h : p.Sheltered changes w request)
    (registered : after.registered = w.registered)
    (keeps : PathLocks.Keeps p.number w.locks after.locks)
    (same : p.phase.role = .working → w.SameAt p.path after) : p.Sheltered changes after request := by
  constructor
  case path => exact h.path
  case known => exact h.known
  case asked => exact registered ▸ h.asked
  case place => exact (h.lined.carry keeps).place
  case holds => exact (h.lined.carry keeps).holds
  case atHand =>
    intro working
    obtain ⟨now, embedder, stands⟩ := h.atHand working
    obtain ⟨config, sameRegistered, state⟩ := same working
    have found : (w.under now embedder).SameAt request.path (after.under now embedder) :=
      ⟨config, sameRegistered, h.path ▸ state⟩
    exact ⟨now, embedder, Stands.carry found rfl rfl working stands⟩

/-- Two passes at work are over different paths. -/
theorem Pass.Sheltered.apart {request' : Request} {q : Pass} (hp : p.Sheltered changes w request)
    (hq : q.Sheltered changes w request') (activeP : p.Active) (activeQ : q.Active)
    (different : p.number ≠ q.number) : p.path ≠ q.path := fun path =>
  different (hp.lined.unique hq.lined activeP.role.2 (hp.holds activeP) activeQ path)

/-- A pass whose result stands changes nothing but the table of files and the locks. -/
theorem Pass.Past.step (past : p.Past) (w : CodeIndex) :
    ∃ files locks, (p.step w).1 = { w with files, locks } := by
  cases standing : p.phase with
  | confirming | marking | clearing =>
      simp only [Pass.step, standing]
      exact ⟨_, _, rfl⟩
  | ended =>
      simp only [Pass.step, standing]
      exact ⟨w.files, w.locks, rfl⟩
  | begun | waiting => exact absurd (congrArg Phase.role standing) past.role.1
  | _ => exact absurd (congrArg Phase.role standing) past.role.2

/-- Only a pass at work changes what is held. -/
theorem Pass.step_rests (p : Pass) (w : CodeIndex) (rests : p.phase.role ≠ .working) :
    (p.step w).1.state = w.state := by
  rcases p.step_state w with same | ⟨plan, records, standing, -⟩ | ⟨standing, -⟩
  · exact same
  · exact absurd (congrArg Phase.role standing) rests
  · exact absurd (congrArg Phase.role standing) rests

/-- What a pass looks at in its next step, it finds as if it went on alone. -/
theorem Pass.Sheltered.undisturbed (h : p.Sheltered changes w request)
    (cached : Cached w.registered changes w.cache) (goesOn : ¬p.Past) :
    ∃ now embedder, Undisturbed changes (w.under now embedder) request w w p ∧
      (∀ change, p.phase = .admitted change → w.now = now) ∧
      ∀ plan kept, p.phase = .embedding plan kept → w.embedder = embedder := by
  have around (now : Instant) (embedder : Embedder) :
      Surroundings changes (w.under now embedder) request w w p :=
    ⟨h.path, rfl, rfl, rfl, rfl, cached⟩
  have asked := h.asked
  have atHand := h.atHand
  cases standing : p.phase with
  | begun r | waiting r | admitted change =>
      rw [standing] at asked
      have stands : Stands changes (w.under w.now w.embedder) request w.state p.phase := by
        rw [standing]
        exact ⟨asked, rfl⟩
      exact ⟨w.now, w.embedder, ⟨around _ _, stands⟩, fun _ _ => rfl, fun _ _ _ => rfl⟩
  | embedding plan kept =>
      rw [standing] at atHand
      obtain ⟨now, embedder, ⟨t, parsed, read, made⟩, refreshed, -⟩ := atHand rfl
      -- the embedder was not asked so far
      have stands : Stands changes (w.under now w.embedder) request w.state p.phase := by
        rw [standing]
        exact ⟨⟨⟨t.change, t.language, t.asked, t.resolved⟩, parsed, read, made⟩, refreshed, rfl⟩
      refine ⟨now, w.embedder, ⟨around _ _, stands⟩, ?_, fun _ _ _ => rfl⟩
      rintro change ⟨⟩
  | beforeParsing | parsing | beforeExtracting | extracting | beforeEmbedding | beforeCommit
  | committing | removing =>
      obtain ⟨now, embedder, stands⟩ := atHand (congrArg Phase.role standing)
      refine ⟨now, embedder, ⟨around _ _, stands⟩, ?_, ?_⟩
      · rintro change ⟨⟩
      · rintro plan kept ⟨⟩
  | confirming | marking | clearing =>
      exact absurd (.inl ⟨_, congrArg Phase.role standing⟩) goesOn
  | ended => exact absurd (.inr ⟨_, congrArg Phase.role standing⟩) goesOn

theorem Pass.Sheltered.proceeds (h : p.Sheltered changes w request)
    (cached : Cached w.registered changes w.cache) :
    p.Proceeds changes w request (p.step w) := by
  by_cases past : p.Past
  · obtain ⟨files, locks, same⟩ := past.step w
    have stays : (p.step w).2.Past := (p.step_taken w h.path h.asked).past past
    refine ⟨?_, ?_, ?_, ⟨w.now, w.embedder, ?_⟩, fun working => absurd working stays.role.2⟩
    · rw [same]
    · rw [same]
    · rw [same]
      exact cached
    · rw [same]
      exact .none
  · obtain ⟨now, embedder, before, time, answers⟩ := h.undisturbed cached past
    have step := before.step time answers h.known
    refine ⟨step.config, step.registered, step.cached, ⟨now, embedder, step.effect⟩, fun working => ?_⟩
    have same := step.stands.unmoved working
    have found : (w.under now embedder).SameAt request.path ((p.step w).1.under now embedder) :=
      ⟨step.config, step.registered, same ▸ .refl _ _⟩
    have stands := step.stands
    rw [same] at stands
    exact ⟨now, embedder, Stands.carry found rfl rfl working stands⟩

/-- What is true of a pass after its own step. -/
theorem Pass.Sheltered.step (h : p.Sheltered changes w request)
    (proceeds : p.Proceeds changes w request (p.step w)) :
    (p.step w).2.Sheltered changes (p.step w).1 request := by
  have taken := p.step_taken w h.path h.asked
  have lined := h.lined.step taken
  exact ⟨taken.beside.path.trans h.path, h.known, taken.asked h.asked, lined.place, lined.holds,
    proceeds.atHand⟩

end

/-! ## Sessions with prunings -/

/-- What happens to an index: a move of a session, or a pruning. -/
inductive Happening where
  | move (m : Move)
  | prune
  deriving Inhabited

/-- The changes that come in. -/
def incoming (happenings : List Happening) : List FileChange :=
  happenings.filterMap fun
    | .move (.begin (.index change)) => some change
    | _ => none

theorem mem_incoming {happenings : List Happening} {change : FileChange}
    (h : .move (.begin (.index change)) ∈ happenings) : change ∈ incoming happenings :=
  List.mem_filterMap.mpr ⟨.move (.begin (.index change)), h, rfl⟩

namespace Session

open IndexState (Labelling Placed)

def happen (s : Session) : Happening → Session
  | .move m => s.move m
  | .prune => s.around .prune

def happenAll (s : Session) (happenings : List Happening) : Session :=
  happenings.foldl happen s

/-- What holds all along a session, whatever passes are on their way and whatever the store does. -/
structure Secluded (c : IndexConfig) (registered : List Language) (changes : List FileChange)
    (s : Session) : Prop extends CodeIndex.Running c registered changes s.index where
  placed : Placed s.index.state
  numbered : s.index.locks.Numbered
  own : ∀ number request p, s.Has number request p → p.number = number
  passes : ∀ number request p, s.Has number request p → p.Sheltered changes s.index request

/-- What holds all along a session if the store refuses one of the coming writes at most. -/
structure Sheltered (c : IndexConfig) (registered : List Language) (changes : List FileChange)
    (s : Session) : Prop extends Secluded c registered changes s where
  labelling : Labelling s.index.state

section

variable {c : IndexConfig} {registered : List Language} {changes : List FileChange} {s : Session}

/-- What does not disturb any path keeps the passes secluded. -/
theorem Secluded.quiet (h : Secluded c registered changes s) {after : CodeIndex}
    (running : CodeIndex.Running c registered changes after) (placed : Placed after.state)
    (numbered : after.locks.Numbered)
    (keeps : ∀ pass, PathLocks.Keeps pass s.index.locks after.locks)
    (same : ∀ path, s.index.SameAt path after) :
    Secluded c registered changes { s with index := after } :=
  ⟨running, placed, numbered, h.own, fun number request p held =>
    (h.passes number request p held).carry (same "").registered (keeps p.number)
      fun _ => same p.path⟩

theorem Secluded.begin (h : Secluded c registered changes s) (request : Request)
    (known : ∀ change, request = .index change → change ∈ changes) :
    Secluded c registered changes (s.begin request) := by
  constructor
  case toRunning => exact ⟨h.sameConfig, h.sameRegistered, h.cached, h.tracked⟩
  case placed => exact h.placed
  case numbered => exact h.numbered
  case own =>
    intro number r p held
    rcases s.has_begin request held with ⟨rfl, rfl, rfl⟩ | ⟨-, old⟩
    · rfl
    · exact h.own number r p old
  case passes =>
    intro number r p held
    rcases s.has_begin request held with ⟨rfl, rfl, rfl⟩ | ⟨-, old⟩
    · exact ⟨rfl, known, rfl, nofun, fun active => absurd rfl active.role.1, nofun⟩
    · exact (h.passes number r p old).carry rfl .refl fun _ => ⟨rfl, rfl, .refl _ _⟩

/-- What the step of a pass does to the index. -/
theorem Secluded.proceeds (h : Secluded c registered changes s) {number : Nat} {request : Request}
    {p : Pass} (held : s.Has number request p) :
    p.Proceeds changes s.index request (p.step s.index) :=
  (h.passes number request p held).proceeds (h.sameRegistered.symm ▸ h.cached)

/-- A step of a pass leaves alone what is looked at of other paths. -/
theorem Secluded.sameAt_step (h : Secluded c registered changes s)
    (apart : Seed.Apart (seedsOf registered c.pipeline.snippetChars changes)) {number : Nat}
    {request : Request} {p : Pass} (held : s.Has number request p) {path : String}
    (different : path ≠ p.path) : s.index.state.SameAt path (p.step s.index).1.state := by
  have pass := h.passes number request p held
  obtain ⟨now, embedder, effect⟩ := (h.proceeds held).effect
  have placed : Placed (s.index.under now embedder).state := h.placed
  obtain ⟨rfl, rfl, -, tracked⟩ := h.toRunning
  have trackedThen : Tracked (s.index.under now embedder).registered
    (s.index.under now embedder).config.pipeline.snippetChars changes
    (s.index.under now embedder).state := tracked
  exact placed.sameAt_effect trackedThen apart effect (pass.path ▸ different)

/-- A step of a pass keeps all passes secluded: what it commits or removes is its own file, over
    which no other pass is at work. -/
theorem Secluded.step (h : Secluded c registered changes s)
    (apart : Seed.Apart (seedsOf registered c.pipeline.snippetChars changes)) (number : Nat) :
    Secluded c registered changes (s.step number) := by
  cases found : Keyed.get? s.passes number with
  | none =>
      rw [Session.step, found]
      exact h
  | some entry =>
      obtain ⟨request, p⟩ := entry
      have pass := h.passes number request p found
      have proceeds := h.proceeds found
      have sameAt {path : String} (different : path ≠ p.path) := h.sameAt_step apart found different
      obtain ⟨⟨rfl, rfl, cached, tracked⟩, placed, numbered, own, passes⟩ := h
      have beside := (p.step_taken s.index pass.path pass.asked).beside
      obtain ⟨now, embedder, effect⟩ := proceeds.effect
      have placedThen : Placed (s.index.under now embedder).state := placed
      have trackedThen : Tracked (s.index.under now embedder).registered
        (s.index.under now embedder).config.pipeline.snippetChars changes
        (s.index.under now embedder).state := tracked
      rw [step_eq found]
      refine ⟨⟨proceeds.config, proceeds.registered, proceeds.cached, trackedThen.effect apart effect⟩,
        placedThen.effect trackedThen apart effect, beside.numbered numbered, ?own, ?passes⟩
      case own =>
        intro m r q held
        rcases has_advanced held with ⟨rfl, rfl, rfl⟩ | ⟨-, old⟩
        · exact beside.number
        · exact own m r q old
      case passes =>
        intro m r q held
        rcases has_advanced held with ⟨rfl, rfl, rfl⟩ | ⟨different, old⟩
        · exact pass.step proceeds
        · have other := passes m r q old
          have ownNumber : q.number ≠ p.number := own m r q old ▸ different
          refine other.carry beside.registered (beside.others numbered q.number ownNumber) ?_
          intro working
          refine ⟨proceeds.config, proceeds.registered, ?_⟩
          by_cases works : p.phase.role = .working
          · exact sameAt (other.apart pass (.inl working) (.inl works) ownNumber)
          · exact (p.step_rests s.index works).symm ▸ .refl q.path s.index.state

theorem Secluded.around (h : Secluded c registered changes s)
    (apart : Seed.Apart (seedsOf registered c.pipeline.snippetChars changes)) {op : Operation}
    (besides : op.Aside ∨ op = .prune) : Secluded c registered changes (s.around op) := by
  have running : CodeIndex.Running c registered changes (s.index.perform op) := by
    refine h.toRunning.perform apart fun change same => ?_
    subst same
    rcases besides with aside | prune
    · cases aside
    · cases prune
  have consistent := h.tracked.consistent
  cases op with
  | index | remove =>
      rcases besides with aside | prune
      · cases aside
      · cases prune
  | feedback id signal =>
      obtain ⟨feedback, after⟩ := s.index.perform_feedback id signal
      rw [Session.around, after]
      rw [after] at running
      exact h.quiet running (h.placed.withFeedback feedback) h.numbered (fun _ => .refl)
        fun _ => ⟨rfl, rfl, rfl, rfl, fun _ _ => rfl⟩
  | clock | provider =>
      exact h.quiet running h.placed h.numbered (fun _ => .refl) fun _ => ⟨rfl, rfl, .refl _ _⟩
  | outage write =>
      have same := s.index.state.vectors.store.get?_failWrites [write]
      exact h.quiet running (h.placed.withVectors same) h.numbered (fun _ => .refl)
        fun _ => ⟨rfl, rfl, rfl, rfl, fun id _ => same id⟩
  | prune =>
      exact h.quiet running (h.placed.pruneStale consistent) (PathLocks.prune_numbered h.numbered)
        (fun _ => .prune) fun path => ⟨rfl, rfl, h.placed.sameAt_pruneStale consistent path⟩

theorem Secluded.happen (h : Secluded c registered changes s)
    (apart : Seed.Apart (seedsOf registered c.pipeline.snippetChars changes)) {happening : Happening}
    (known : ∀ change, happening = .move (.begin (.index change)) → change ∈ changes) :
    Secluded c registered changes (s.happen happening) := by
  cases happening with
  | prune => exact h.around apart (.inr rfl)
  | move m =>
      rw [Session.happen]
      rcases s.begin_or_step_or_around m with ⟨request, rfl⟩ | ⟨number, rfl⟩ | ⟨op, aside, moved⟩
      · refine h.begin request fun change same => known change ?_
        rw [same]
      · exact h.step apart number
      · rw [moved]
        exact h.around apart (.inl aside)

theorem Secluded.happenAll (h : Secluded c registered changes s)
    (apart : Seed.Apart (seedsOf registered c.pipeline.snippetChars changes))
    {happenings : List Happening} (known : incoming happenings ⊆ changes) :
    Secluded c registered changes (s.happenAll happenings) := by
  refine List.foldlRecOn (motive := Secluded c registered changes) happenings _ h ?_
  intro before secluded happening inside
  exact secluded.happen apart fun change same => known (mem_incoming (same ▸ inside))

theorem Sheltered.labelling_step (h : Sheltered c registered changes s)
    (apart : Seed.Apart (seedsOf registered c.pipeline.snippetChars changes)) (number : Nat) :
    Labelling (s.step number).index.state := by
  cases found : Keyed.get? s.passes number with
  | none =>
      rw [Session.step, found]
      exact h.labelling
  | some entry =>
      obtain ⟨request, p⟩ := entry
      obtain ⟨now, embedder, effect⟩ := (h.proceeds found).effect
      have labelling : Labelling (s.index.under now embedder).state := h.labelling
      obtain ⟨rfl, rfl, -, tracked⟩ := h.toRunning
      have trackedThen : Tracked (s.index.under now embedder).registered
        (s.index.under now embedder).config.pipeline.snippetChars changes
        (s.index.under now embedder).state := tracked
      rw [step_eq found]
      exact labelling.effect trackedThen apart effect

theorem Sheltered.labelling_around (h : Sheltered c registered changes s) {op : Operation}
    (besides : op.Aside ∨ op = .prune) : Labelling (s.around op).index.state := by
  cases op with
  | index | remove =>
      rcases besides with aside | prune
      · cases aside
      · cases prune
  | feedback id signal =>
      obtain ⟨feedback, after⟩ := s.index.perform_feedback id signal
      rw [Session.around, after]
      exact h.labelling.withFeedback feedback
  | clock | provider => exact h.labelling
  | outage write =>
      have same := s.index.state.vectors.failWrite_same write
      exact h.labelling.withVectors same (h.labelling.distinct.failWrites [write])
  | prune => exact h.labelling.pruneStale h.tracked.consistent

theorem Sheltered.happen (h : Sheltered c registered changes s)
    (apart : Seed.Apart (seedsOf registered c.pipeline.snippetChars changes)) {happening : Happening}
    (known : ∀ change, happening = .move (.begin (.index change)) → change ∈ changes) :
    Sheltered c registered changes (s.happen happening) := by
  refine ⟨h.toSecluded.happen apart known, ?_⟩
  cases happening with
  | prune => exact h.labelling_around (.inr rfl)
  | move m =>
      rw [Session.happen]
      rcases s.begin_or_step_or_around m with ⟨request, rfl⟩ | ⟨number, rfl⟩ | ⟨op, aside, moved⟩
      · exact h.labelling
      · exact h.labelling_step apart number
      · rw [moved]
        exact h.labelling_around (.inl aside)

end

end Session

namespace CodeIndex

open IndexState (Labelling Placed)

/-- The index after all that happens to it, passes included that are still on their way. -/
def undergo (w : CodeIndex) (happenings : List Happening) : CodeIndex :=
  ((Session.start w).happenAll happenings).index

variable {c : IndexConfig} {parts : IndexParts} {now : Instant} {w : CodeIndex}

theorem build_locks (built : build c parts now = .ok w) : w.locks = {} := by
  obtain ⟨-, -, -, -, -, locks, -⟩ := build_ok built
  exact locks

theorem build_secluded (built : build c parts now = .ok w)
    (empty : ∀ store, parts.store = some store → store.isEmpty = true) (changes : List FileChange) :
    (Session.start w).Secluded c parts.registered changes := by
  have placed : Placed w.state := by
    obtain ⟨vectors, state, none⟩ := build_store (P := fun s => s.isEmpty = true) built empty
      (storeOf_fresh _).1
    rw [state]
    exact .empty (VectorStore.get?_isEmpty none)
  have numbered : w.locks.Numbered := by
    rw [build_locks built]
    exact nofun
  have none (number : Nat) (request : Request) (p : Pass) :
      ¬(Session.start w).Has number request p := nofun
  exact ⟨.build built _, placed, numbered,
    fun number request p held => absurd held (none number request p),
    fun number request p held => absurd held (none number request p)⟩

/-- Whatever happens to a built index, its passes stay sheltered. -/
theorem undergo_sheltered (built : build c parts now = .ok w) (happenings : List Happening)
    (apart : Seed.Apart (seedsOf parts.registered c.pipeline.snippetChars (incoming happenings)))
    (store : ∀ store, parts.store = some store → store.isEmpty = true ∧ store.Steady) :
    ((Session.start w).happenAll happenings).Sheltered c parts.registered (incoming happenings) := by
  have start : (Session.start w).Sheltered c parts.registered (incoming happenings) := by
    refine ⟨build_secluded built (fun given known => (store given known).1) _, ?_⟩
    obtain ⟨vectors, state, empty, steady⟩ := build_fresh built store
    rw [show (Session.start w).index.state = w.state from rfl, state]
    exact .empty (VectorStore.get?_isEmpty empty) steady (VectorStore.distinct_isEmpty empty)
  refine List.foldlRecOn (motive := Session.Sheltered c parts.registered (incoming happenings))
    happenings _ start fun before sheltered happening inside => ?_
  exact sheltered.happen apart fun change same => mem_incoming (same ▸ inside)

/-- What happens when an operation is done as a whole: a pass goes on alone. -/
def alone (number : Nat) : Operation → List Happening
  | .index change => (Session.solo (.index change) number).map .move
  | .remove path => (Session.solo (.remove path) number).map .move
  | .feedback id signal => [.move (.feedback id signal)]
  | .prune => [.prune]
  | .clock now => [.move (.clock now)]
  | .provider embedder => [.move (.provider embedder)]
  | .outage write => [.move (.outage write)]

theorem happenAll_alone (s : Session) (op : Operation) :
    (s.happenAll (alone s.index.passes op)).index = s.index.perform op := by
  have moves (moves : List Move) : s.happenAll (moves.map .move) = s.moveAll moves :=
    List.foldl_map
  cases op with
  | index change => exact (congrArg Session.index (moves _)).trans (s.solo_process (.index change)).1
  | remove path => exact (congrArg Session.index (moves _)).trans (s.solo_process (.remove path)).1
  | feedback | prune | clock | provider | outage => rfl

theorem incoming_alone (number : Nat) (op : Operation) :
    incoming (alone number op) = changesOf [op] := by
  cases op with
  | index | remove | feedback | prune | clock | provider | outage => rfl

/-- What operations one after the other make of an index, it also undergoes in a session. -/
theorem performAll_undergo (w : CodeIndex) (ops : List Operation) :
    ∃ happenings, incoming happenings = changesOf ops ∧ w.undergo happenings = w.performAll ops := by
  have along (s : Session) : ∃ happenings, incoming happenings = changesOf ops ∧
      (s.happenAll happenings).index = s.index.performAll ops := by
    induction ops generalizing s with
    | nil => exact ⟨[], rfl, rfl⟩
    | cons op rest ih =>
        obtain ⟨later, changes, ran⟩ := ih (s.happenAll (alone s.index.passes op))
        refine ⟨alone s.index.passes op ++ later, ?_, ?_⟩
        · rw [incoming, List.filterMap_append, ← incoming, ← incoming, incoming_alone, changes]
          exact List.filterMap_append.symm
        · rw [Session.happenAll, List.foldl_append, ← Session.happenAll, ← Session.happenAll, ran,
            happenAll_alone]
          rfl
  exact along (Session.start w)

/-- What an index becomes, with the changes that came in: by operations one after the other, or by
    passes side by side over a store that was empty at first. -/
inductive Reaches (w : CodeIndex) (given : Option VectorStore) :
    List FileChange → CodeIndex → Prop where
  | oneByOne (ops : List Operation) : Reaches w given (changesOf ops) (w.performAll ops)
  | sideBySide (happenings : List Happening)
      (empty : ∀ store, given = some store → store.isEmpty = true) :
      Reaches w given (incoming happenings) (w.undergo happenings)

theorem Reaches.running {changes : List FileChange} {v : CodeIndex}
    (reached : w.Reaches parts.store changes v) (built : build c parts now = .ok w)
    (apart : Seed.Apart (seedsOf parts.registered c.pipeline.snippetChars changes)) :
    Running c parts.registered changes v := by
  cases reached with
  | oneByOne ops => exact (Running.build built _).performAll apart (List.Subset.refl _)
  | sideBySide happenings empty =>
      have secluded := build_secluded built empty (incoming happenings)
      exact (secluded.happenAll apart (List.Subset.refl _)).toRunning

/-- A change is worked on while the index is pruned, and a later one when the run breaks off. -/
def busyRun : List Happening :=
  .move (.begin (.index (oneFunction "f()"))) :: List.replicate 6 (.move (.step 0)) ++
    .prune :: List.replicate 6 (.move (.step 0)) ++
    .move (.begin (.index (oneFunction "f(x)"))) :: List.replicate 8 (.move (.step 1))

theorem busyRun_apart : Seed.Apart (seedsOf Language.all 2000 (incoming busyRun)) :=
  shortRun_apart

end CodeIndex

end CodeSearch
