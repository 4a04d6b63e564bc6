import CodeSearch.Index.Operations
import CodeSearch.Proofs.Index.Reading

/-! # A pass that nothing disturbs

When no other pass goes on at the same time, a pass finds at each step what it left at the step
before. What it then does to the index is one of three things: nothing, the commit of a draft that
was made for the very index it began on, or the removal of its file.
-/

namespace CodeSearch

open Syntax (Parsed)

/-- A change that is to be indexed, with the language that it is read in. -/
structure Task (w₀ : CodeIndex) (request : Request) where
  change : FileChange
  language : Language
  asked : request = .index change
  resolved : Language.resolve w₀.registered change.path change.hint = some language

namespace Task

variable {w₀ : CodeIndex} {request : Request}

theorem change_eq {change : FileChange} (t : Task w₀ (.index change)) : t.change = change :=
  (Request.index.inj t.asked).symm

def job (t : Task w₀ request) : Job :=
  Pass.jobOf w₀ t.change.path t.change t.language

/-- The symbols of a parsed source as of the version to come. -/
def extracted (t : Task w₀ request) (parsed : Parsed) : List Symbol :=
  parsed.symbols t.job.unit w₀.config.pipeline.snippetChars

def plan (t : Task w₀ request) (parsed : Parsed) : Plan :=
  Plan.of w₀.config.chunking t.job (t.extracted parsed)

end Task

/-- The vectors of some symbols, as the embedder gave them; it is not asked for none. -/
def Accepted (w₀ : CodeIndex) (symbols : List Symbol) (vectors : List Vector) : Prop :=
  symbols = [] ∧ vectors = [] ∨
    ∃ late, w₀.embedder.embedChecked late (symbols.map w₀.config.chunking.text) = .ok vectors

/-- All that a pass commits for a task. What was parsed is the reading of some change of the run. -/
structure Draft (changes : List FileChange) (w₀ : CodeIndex) (request : Request) extends
    Task w₀ request where
  parsed : Parsed
  read : Read w₀.registered changes toTask.job.unit.parseKey parsed
  vectors : List Vector
  accepted : Accepted w₀ (toTask.plan parsed).toEmbed vectors

namespace Draft

variable {changes : List FileChange} {w₀ : CodeIndex} {request : Request}

def plan (d : Draft changes w₀ request) : Plan :=
  d.toTask.plan d.parsed

/-- The records of the symbols that are embedded anew. -/
def fresh (d : Draft changes w₀ request) : List Record :=
  (d.plan.toEmbed.zip d.vectors).map fun (s, vector) => ⟨s.id, vector, s.metadata⟩

def records (d : Draft changes w₀ request) : List Record :=
  Pass.refreshed w₀ d.plan.kept ++ d.fresh

def update (d : Draft changes w₀ request) : UnitUpdate :=
  d.plan.update d.records

end Draft

section

variable (changes : List FileChange) (w₀ : CodeIndex) (request : Request)

/-- What becomes of the index. -/
inductive Effect : IndexState → Prop where
  | none : Effect w₀.state
  | commit (d : Draft changes w₀ request) : Effect (w₀.state.commit d.update).2
  | remove (path : String) (asked : request = .remove path) : Effect (w₀.state.removeUnit path).2

/-- Whether the content of a change is now served. -/
def Served (result : Except PassError Ack) : Prop :=
  ∃ ack, result = .ok ack ∧ (ack.outcome = .unchanged ∨ ∃ counts, ack.outcome = .indexed counts)

/-- How the content of a change came to be served. -/
inductive Success : IndexState → Prop where
  | confirmed (t : Task w₀ request) (entry : UnitEntry)
      (held : w₀.state.unit? t.change.path = some entry)
      (content : entry.unit.contentHash = Digest.contentHash t.change.source.text)
      (language : entry.unit.language = t.language) : Success w₀.state
  | committed (d : Draft changes w₀ request) (counts : CommitCounts)
      (accepted : (w₀.state.commit d.update).1 = .ok counts) :
      Success (w₀.state.commit d.update).2

/-- What a pass has done when it stands at a phase. -/
def Stands (state : IndexState) : Phase → Prop
  | .begun r | .waiting r => r = request ∧ state = w₀.state
  | .admitted change => request = .index change ∧ state = w₀.state
  | .confirming _ => Success changes w₀ request state ∧ state = w₀.state
  | .beforeParsing job | .parsing job =>
    (∃ t : Task w₀ request, job = t.job) ∧ state = w₀.state
  | .beforeExtracting job parsed | .extracting job parsed =>
    (∃ t : Task w₀ request, job = t.job ∧ Read w₀.registered changes t.job.unit.parseKey parsed) ∧
      state = w₀.state
  | .beforeEmbedding plan =>
    (∃ (t : Task w₀ request) (parsed : Parsed),
      Read w₀.registered changes t.job.unit.parseKey parsed ∧ plan = t.plan parsed) ∧
      state = w₀.state
  | .embedding plan kept =>
    (∃ (t : Task w₀ request) (parsed : Parsed),
      Read w₀.registered changes t.job.unit.parseKey parsed ∧ plan = t.plan parsed) ∧
      kept = Pass.refreshed w₀ plan.kept ∧ state = w₀.state
  | .beforeCommit plan records | .committing plan records =>
    (∃ d : Draft changes w₀ request, plan = d.plan ∧ records = d.records) ∧ state = w₀.state
  | .marking _ => Effect changes w₀ request state ∧ Success changes w₀ request state
  | .removing => (∃ path, request = .remove path) ∧ state = w₀.state
  | .clearing outcome =>
    Effect changes w₀ request state ∧ (outcome = .notIndexed ∨ ∃ n, outcome = .removed n)
  | .ended result =>
    Effect changes w₀ request state ∧ (Served result → Success changes w₀ request state)

/-- What no step of a pass changes, and a cache that it only adds readings to. The embedder and the
    clock are as they are around the pass now, whatever they were for the index it began on. -/
structure Surroundings (around w : CodeIndex) (p : Pass) : Prop where
  path : p.path = request.path
  config : w.config = w₀.config
  registered : w.registered = w₀.registered
  embedder : w.embedder = around.embedder
  now : w.now = around.now
  cached : Cached w₀.registered changes w.cache

/-- A pass and the index on its way, both as the pass left them. -/
structure Undisturbed (around w : CodeIndex) (p : Pass) : Prop extends
    Surroundings changes w₀ request around w p where
  stands : Stands changes w₀ request w.state p.phase

end

variable {changes : List FileChange} {w₀ around : CodeIndex} {request : Request} {w : CodeIndex}
variable {p : Pass}

theorem Effect.unchanged (same : w.state = w₀.state) : Effect changes w₀ request w.state :=
  same ▸ .none

namespace Surroundings

theorem goOn (h : Surroundings changes w₀ request around w p) {phase : Phase}
    (stands : Stands changes w₀ request w.state phase) :
    Undisturbed changes w₀ request around (p.goOn w phase).1 (p.goOn w phase).2 :=
  ⟨⟨h.path, h.config, h.registered, h.embedder, h.now, h.cached⟩, stands⟩

theorem withFiles (h : Surroundings changes w₀ request around w p) (files : FileTable) :
    Surroundings changes w₀ request around { w with files } p :=
  ⟨h.path, h.config, h.registered, h.embedder, h.now, h.cached⟩

theorem withState (h : Surroundings changes w₀ request around w p) (state : IndexState) :
    Surroundings changes w₀ request around { w with state } p :=
  ⟨h.path, h.config, h.registered, h.embedder, h.now, h.cached⟩

theorem finish (h : Surroundings changes w₀ request around w p) {result : Except PassError Ack}
    (ended : Stands changes w₀ request w.state (.ended result)) :
    Undisturbed changes w₀ request around (p.finish w result).1 (p.finish w result).2 :=
  ⟨⟨h.path, h.config, h.registered, h.embedder, h.now, h.cached⟩, ended⟩

theorem not_served_error (cause : PassError) : ¬Served (.error cause) := by
  rintro ⟨ack, same, -⟩
  cases same

theorem supersede (h : Surroundings changes w₀ request around w p)
    (effect : Effect changes w₀ request w.state) :
    Undisturbed changes w₀ request around (p.supersede w).1 (p.supersede w).2 := by
  refine h.finish ⟨effect, ?_⟩
  rintro ⟨ack, same, served⟩
  cases same
  rcases served with served | ⟨counts, served⟩
  · cases served
  · cases served

theorem fail (h : Surroundings changes w₀ request around w p)
    (effect : Effect changes w₀ request w.state) (job : Job) (cause : IndexError) :
    Undisturbed changes w₀ request around (p.fail w job cause).1 (p.fail w job cause).2 := by
  have ended (cause : PassError) : Stands changes w₀ request w.state (.ended (.error cause)) :=
    ⟨effect, fun served => absurd served (not_served_error cause)⟩
  unfold Pass.fail
  split
  · exact h.finish (ended _)
  · split
    · exact h.finish (ended _)
    · exact h.supersede effect
    · exact (h.withFiles _).finish (ended _)

theorem enter (h : Surroundings changes w₀ request around w p)
    (effect : Effect changes w₀ request w.state) (stage : Stage) {phase : Phase}
    (stands : Stands changes w₀ request w.state phase) :
    Undisturbed changes w₀ request around (p.enter w stage phase).1 (p.enter w stage phase).2 := by
  unfold Pass.enter
  split
  · exact (h.withFiles _).goOn stands
  · exact h.supersede effect

theorem jobOf_eq (h : Surroundings changes w₀ request around w p) (now : around.now = w₀.now)
    (same : w.state = w₀.state) {change : FileChange} (asked : request = .index change)
    (language : Language) :
    Pass.jobOf w p.path change language = Pass.jobOf w₀ change.path change language := by
  have path : p.path = change.path := by rw [h.path, asked]; rfl
  simp only [Pass.jobOf, Pass.nextUnit, Pass.held?, path, same, h.now, now]

theorem refreshed_eq (same : w.state = w₀.state) (kept : List Symbol) :
    Pass.refreshed w kept = Pass.refreshed w₀ kept := by
  simp only [Pass.refreshed, same]

theorem identify (h : Surroundings changes w₀ request around w p) (now : around.now = w₀.now)
    (same : w.state = w₀.state) {change : FileChange} (asked : request = .index change) :
    Undisturbed changes w₀ request around (p.identify w change).1 (p.identify w change).2 := by
  have path : p.path = change.path := by rw [h.path, asked]; rfl
  unfold Pass.identify
  split
  · exact (h.withFiles _).finish ⟨Effect.unchanged same,
      fun served => absurd served (not_served_error _)⟩
  · rename_i language resolved
    rw [h.registered, path] at resolved
    let t : Task w₀ request := ⟨change, language, asked, resolved⟩
    have job : Pass.jobOf w p.path change language = t.job := h.jobOf_eq now same asked language
    have goesOn : Undisturbed changes w₀ request around (p.goOn w (.beforeParsing t.job)).1
        (p.goOn w (.beforeParsing t.job)).2 := h.goOn ⟨⟨t, rfl⟩, same⟩
    simp only [job]
    split
    · rename_i entry held
      split
      · rename_i unchanged
        rw [path, same] at held
        simp only [Bool.and_eq_true, decide_eq_true_eq] at unchanged
        refine h.goOn ⟨?_, same⟩
        rw [same]
        exact .confirmed t entry held unchanged.1 unchanged.2
      · exact goesOn
    · exact goesOn

theorem parsing (h : Surroundings changes w₀ request around w p) (same : w.state = w₀.state)
    (t : Task w₀ request) (inside : t.change ∈ changes) (standing : p.phase = .parsing t.job) :
    Undisturbed changes w₀ request around (p.step w).1 (p.step w).2 := by
  obtain ⟨cached, read⟩ := h.cached.parse w.parseOptions inside t.resolved
    (show t.job.unit.parseKey = _ from rfl)
  have parsed : Surroundings changes w₀ request around
      { w with cache := (w.cache.parse w.parseOptions t.change.source t.job.unit.parseKey).2 } p :=
    ⟨h.path, h.config, h.registered, h.embedder, h.now, cached⟩
  simp only [Pass.step, standing]
  split
  · exact parsed.fail (Effect.unchanged same) _ _
  · rename_i result ok
    exact parsed.goOn ⟨⟨t, rfl, read result ok⟩, same⟩

theorem embed (h : Surroundings changes w₀ request around w p)
    (embedder : around.embedder = w₀.embedder) (same : w.state = w₀.state) {t : Task w₀ request}
    {parsed : Parsed} (read : Read w₀.registered changes t.job.unit.parseKey parsed) :
    Undisturbed changes w₀ request around
      (p.embed w (t.plan parsed) (Pass.refreshed w₀ (t.plan parsed).kept)).1
      (p.embed w (t.plan parsed) (Pass.refreshed w₀ (t.plan parsed).kept)).2 := by
  let texts := (t.plan parsed).toEmbed.map w.config.chunking.text
  have sent : Surroundings changes w₀ request around
      { w with textsSent := w.textsSent + texts.length } p :=
    ⟨h.path, h.config, h.registered, h.embedder, h.now, h.cached⟩
  simp only [Pass.embed]
  split
  · exact sent.fail (Effect.unchanged same) _ _
  · rename_i vectors accepted
    rw [h.embedder, embedder, h.config] at accepted
    exact sent.goOn ⟨⟨⟨t, parsed, read, vectors, .inr ⟨_, accepted⟩⟩, rfl, rfl⟩, same⟩

theorem committing (h : Surroundings changes w₀ request around w p) (same : w.state = w₀.state)
    (d : Draft changes w₀ request) (standing : p.phase = .committing d.plan d.records) :
    Undisturbed changes w₀ request around (p.step w).1 (p.step w).2 := by
  have after : w.state.commit (d.plan.update d.records) = w₀.state.commit d.update := by
    rw [same]
    rfl
  simp only [Pass.step, standing, after]
  split
  · rename_i cause state refused
    have effect : Effect changes w₀ request (w₀.state.commit d.update).2 := .commit d
    rw [refused] at effect
    exact (h.withState state).fail effect _ _
  · rename_i counts state accepted
    have effect : Effect changes w₀ request (w₀.state.commit d.update).2 := .commit d
    have success : Success changes w₀ request (w₀.state.commit d.update).2 :=
      .committed d counts (by rw [accepted])
    rw [accepted] at effect success
    exact (h.withState state).goOn ⟨effect, success⟩

end Surroundings

namespace Undisturbed

/-- A step goes on from what the pass left. Only to set up its job does it look at the clock, and
    only to embed does it ask the embedder. -/
theorem step (h : Undisturbed changes w₀ request around w p)
    (now : ∀ change, p.phase = .admitted change → around.now = w₀.now)
    (embedder : ∀ plan kept, p.phase = .embedding plan kept → around.embedder = w₀.embedder)
    (known : ∀ change, request = .index change → change ∈ changes) :
    Undisturbed changes w₀ request around (p.step w).1 (p.step w).2 := by
  -- what a pass stands for in a phase is what the next phase needs
  have stands := h.stands
  cases standing : p.phase with
  | begun r =>
      rw [standing] at stands
      simp only [Pass.step, standing, Pass.queueUp]
      exact ⟨⟨h.path, h.config, h.registered, h.embedder, h.now, h.cached⟩, stands⟩
  | waiting r =>
      rw [standing] at stands
      obtain ⟨rfl, same⟩ := stands
      simp only [Pass.step, standing]
      split
      · exact h
      · split
        · exact h.supersede (Effect.unchanged same)
        · cases r with
          | index change => exact h.goOn ⟨rfl, same⟩
          | remove path => exact h.goOn ⟨⟨path, rfl⟩, same⟩
  | admitted change =>
      rw [standing] at stands
      simp only [Pass.step, standing]
      exact h.identify (now change standing) stands.2 stands.1
  | confirming version =>
      rw [standing] at stands
      simp only [Pass.step, standing]
      exact (h.withFiles _).finish ⟨Effect.unchanged stands.2, fun _ => stands.1⟩
  | beforeParsing job =>
      rw [standing] at stands
      simp only [Pass.step, standing]
      exact (h.withFiles _).goOn stands
  | parsing job =>
      rw [standing] at stands
      obtain ⟨⟨t, rfl⟩, same⟩ := stands
      exact h.parsing same t (known _ t.asked) standing
  | beforeExtracting job parsed =>
      rw [standing] at stands
      simp only [Pass.step, standing]
      exact h.enter (Effect.unchanged stands.2) _ stands
  | extracting job parsed =>
      rw [standing] at stands
      obtain ⟨⟨t, rfl, read⟩, same⟩ := stands
      simp only [Pass.step, standing]
      split
      · exact h.fail (Effect.unchanged same) _ _
      · rename_i symbols ok
        have extracted : symbols = t.extracted parsed := by
          unfold extract? at ok
          split at ok
          · rw [← Except.ok.inj ok, h.config]
            rfl
          · cases ok
        rw [extracted, h.config]
        exact h.goOn ⟨⟨t, parsed, read, rfl⟩, same⟩
  | beforeEmbedding plan =>
      rw [standing] at stands
      obtain ⟨⟨t, parsed, read, rfl⟩, same⟩ := stands
      simp only [Pass.step, standing, Surroundings.refreshed_eq same]
      refine h.enter (Effect.unchanged same) _ ?_
      split
      · rename_i nothing
        have empty : (t.plan parsed).toEmbed = [] := List.isEmpty_iff.mp nothing
        refine ⟨⟨⟨t, parsed, read, [], .inl ⟨empty, rfl⟩⟩, rfl, ?_⟩, same⟩
        simp [Draft.records, Draft.fresh, Draft.plan]
      · exact ⟨⟨t, parsed, read, rfl⟩, rfl, same⟩
  | embedding plan kept =>
      rw [standing] at stands
      obtain ⟨⟨t, parsed, read, rfl⟩, rfl, same⟩ := stands
      simp only [Pass.step, standing]
      exact h.embed (embedder _ _ standing) same read
  | beforeCommit plan records =>
      rw [standing] at stands
      simp only [Pass.step, standing]
      split
      · exact h.goOn stands
      · exact h.supersede (Effect.unchanged stands.2)
  | committing plan records =>
      rw [standing] at stands
      obtain ⟨⟨d, rfl, rfl⟩, same⟩ := stands
      exact h.committing same d standing
  | marking plan =>
      rw [standing] at stands
      simp only [Pass.step, standing]
      exact (h.withFiles _).finish ⟨stands.1, fun _ => stands.2⟩
  | removing =>
      rw [standing] at stands
      obtain ⟨⟨path, asked⟩, same⟩ := stands
      have here : p.path = path := by rw [h.path, asked]; rfl
      simp only [Pass.step, standing, Pass.remove]
      refine ⟨⟨h.path, h.config, h.registered, h.embedder, h.now, h.cached.erasePath _⟩, ?_, ?_⟩
      · rw [here, same]
        exact .remove path asked
      · cases (w.state.removeUnit p.path).1 with
        | none => exact .inl rfl
        | some n => exact .inr ⟨n, rfl⟩
  | clearing outcome =>
      rw [standing] at stands
      simp only [Pass.step, standing]
      refine (h.withFiles _).finish ⟨stands.1, ?_⟩
      rintro ⟨ack, same, served⟩
      cases same
      rcases stands.2 with rfl | ⟨n, rfl⟩
      · rcases served with served | ⟨counts, served⟩
        · cases served
        · cases served
      · rcases served with served | ⟨counts, served⟩
        · cases served
        · cases served
  | ended result =>
      simp only [Pass.step, standing]
      exact h

theorem start (cached : Cached w₀.registered changes w₀.cache) :
    Undisturbed changes w₀ request w₀ (Pass.start w₀ request).1 (Pass.start w₀ request).2 :=
  ⟨⟨rfl, rfl, rfl, rfl, rfl, cached⟩, rfl, rfl⟩

theorem run (h : Undisturbed changes w₀ request w₀ w p)
    (known : ∀ change, request = .index change → change ∈ changes) :
    Undisturbed changes w₀ request w₀ (p.run w).1 (p.run w).2 := by
  have steps (n : Nat) : Undisturbed changes w₀ request w₀
      (n.repeat (Pass.stepIf fun _ => true) (w, p)).1
      (n.repeat (Pass.stepIf fun _ => true) (w, p)).2 := by
    induction n with
    | zero => exact h
    | succ n ih => exact ih.step (fun _ _ => rfl) (fun _ _ _ => rfl) known
  exact steps Pass.maxSteps

theorem effect (h : Undisturbed changes w₀ request around w p) :
    Effect changes w₀ request w.state := by
  have stands := h.stands
  cases standing : p.phase with
  | begun | waiting | admitted | confirming | beforeParsing | parsing | beforeExtracting | extracting
  | beforeEmbedding | beforeCommit | committing | removing =>
      rw [standing] at stands
      exact .unchanged stands.2
  | embedding =>
      rw [standing] at stands
      exact .unchanged stands.2.2
  | marking | clearing | ended =>
      rw [standing] at stands
      exact stands.1

theorem success (h : Undisturbed changes w₀ request around w p) (served : Served p.result) :
    Success changes w₀ request w.state := by
  have stands := h.stands
  unfold Pass.result at served
  split at served
  · rename_i result standing
    rw [standing] at stands
    exact stands.2 served
  · exact absurd served (Surroundings.not_served_error _)

end Undisturbed

/-- What a pass from its begin to its end does to an index. -/
structure Processed (changes : List FileChange) (w₀ : CodeIndex) (request : Request)
    (result : Except PassError Ack) (w : CodeIndex) : Prop where
  config : w.config = w₀.config
  registered : w.registered = w₀.registered
  embedder : w.embedder = w₀.embedder
  now : w.now = w₀.now
  cached : Cached w₀.registered changes w.cache
  effect : Effect changes w₀ request w.state
  success : Served result → Success changes w₀ request w.state

theorem CodeIndex.process_processed (w₀ : CodeIndex)
    (known : ∀ change, request = .index change → change ∈ changes)
    (cached : Cached w₀.registered changes w₀.cache) :
    Processed changes w₀ request (w₀.process request).1 (w₀.process request).2 := by
  have started : Undisturbed changes w₀ request w₀ (Pass.start w₀ request).1
      (Pass.start w₀ request).2 := .start cached
  have ran := started.run known
  simp only [CodeIndex.process]
  exact ⟨ran.config, ran.registered, ran.embedder, ran.now, ran.cached, ran.effect, ran.success⟩

end CodeSearch
