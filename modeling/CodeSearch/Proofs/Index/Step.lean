import CodeSearch.Index.Pass
import CodeSearch.Proofs.Index.FileTable
import CodeSearch.Proofs.Index.Replacement

/-! # What a step does beside other passes

For the other passes over its path, a pass is early until it has the lock of the path; then it
works, until its result stands; then it ends. A step changes what is held of the path only when it
commits or removes, and what is held of other paths never.
-/

namespace CodeSearch

/-- What a phase means to other passes. -/
inductive Role where
  /-- The pass does not have the path yet. -/
  | early
  /-- The pass has the path. -/
  | working
  /-- The pass has the path, and what it will report is true of it. -/
  | settled (outcome : PassOutcome)
  | ended (result : Except PassError Ack)

def Phase.role : Phase → Role
  | .begun _ | .waiting _ => .early
  | .confirming _ => .settled .unchanged
  | .marking plan => .settled (.indexed plan.counts)
  | .clearing outcome => .settled outcome
  | .ended result => .ended result
  | _ => .working

/-- Whether a step from one phase to another was a commit or a removal. -/
def Phase.takesEffect : (before after : Phase) → Bool
  | .committing _ _, .marking _ | .removing, .clearing _ => true
  | _, _ => false

section

variable (registered : List Language) (request : Request)

/-- A job is for what was asked. -/
structure Job.Asked (job : Job) : Prop where
  change : request = .index job.change
  path : job.unit.path = job.change.path
  content : job.unit.contentHash = Digest.contentHash job.change.source.text
  language : Language.resolve registered job.change.path job.change.hint = some job.unit.language

/-- A pass has at hand what was asked. -/
def Phase.Asked : Phase → Prop
  | .begun r | .waiting r => r = request
  | .admitted change => request = .index change
  | .beforeParsing job | .parsing job | .beforeExtracting job _ | .extracting job _ =>
    job.Asked registered request
  | .beforeEmbedding plan | .embedding plan _ | .beforeCommit plan _ | .committing plan _
  | .marking plan => plan.job.Asked registered request
  | .confirming _ | .removing | .clearing _ | .ended _ => True

/-- A file is held with the content of a change, in the language that it is read in. -/
def IndexState.Serves (s : IndexState) (change : FileChange) : Prop :=
  ∃ entry, s.unit? change.path = some entry ∧
    entry.unit.contentHash = Digest.contentHash change.source.text ∧
    Language.resolve registered change.path change.hint = some entry.unit.language

/-- What a report says of the index. -/
def PassOutcome.Holds (s : IndexState) : PassOutcome → Prop
  | .indexed _ | .unchanged => ∃ change, request = .index change ∧ s.Serves registered change
  | .removed _ | .notIndexed => s.unit? request.path = none
  | .superseded => False

end

/-- Nothing changes that passes over other paths look at. -/
structure Elsewhere (path : String) (w after : CodeIndex) : Prop where
  registered : after.registered = w.registered
  passes : after.passes = w.passes
  locks : after.locks = w.locks
  events : after.files.SameEvents w.files
  units : ∀ other, other ≠ path → after.state.unit? other = w.state.unit? other

/-- Nothing changes that other passes look at. -/
structure Quiet (path : String) (w after : CodeIndex) : Prop extends Elsewhere path w after where
  unit : after.state.unit? path = w.state.unit? path

/-- How a pass can end: with an error, because a later event came in, or with what is settled. -/
def Pass.Concludes (w : CodeIndex) (p : Pass) : Except PassError Ack → Prop
  | .error _ => True
  | .ok ack => ack.outcome = .superseded ∧ p.isLatest w = false ∨ p.phase.role = .settled ack.outcome

/-- What one step can do. -/
inductive Taken (w : CodeIndex) (request : Request) (p : Pass) : CodeIndex × Pass → Prop where
  | idle : Taken w request p (w, p)
  | queued (standing : p.phase = .begun request) : Taken w request p (p.queueUp w request)
  | admitted (phase : Phase) (standing : p.phase = .waiting request) (holds : p.holdsLock w = true)
      (latest : p.isLatest w = true) (role : phase.role = .working)
      (asked : phase.Asked w.registered request) : Taken w request p (p.goOn w phase)
  | worked (after : CodeIndex) (phase : Phase) (standing : p.phase.role = .working)
      (quiet : Quiet p.path w after) (role : phase.role = .working)
      (asked : phase.Asked w.registered request) : Taken w request p (p.goOn after phase)
  | settled (after : CodeIndex) (phase : Phase) (outcome : PassOutcome)
      (standing : p.phase.role = .working) (elsewhere : Elsewhere p.path w after)
      (noted : p.phase.takesEffect phase = true ∨ Quiet p.path w after)
      (role : phase.role = .settled outcome) (asked : phase.Asked w.registered request)
      (holds : outcome.Holds w.registered request after.state) :
      Taken w request p (p.goOn after phase)
  | finished (after : CodeIndex) (result : Except PassError Ack) (quiet : Quiet p.path w after)
      (has : p.phase.role ≠ .early ∨ p.holdsLock w = true) (how : p.Concludes w result) :
      Taken w request p (p.finish after result)

section

variable {w after : CodeIndex} {request : Request} {p : Pass}

theorem Job.Asked.place {registered : List Language} {job : Job} (asked : job.Asked registered request)
    (path : p.path = request.path) : job.change.path = p.path := by
  rw [path, asked.change]
  rfl

theorem Quiet.refl (path : String) (w : CodeIndex) : Quiet path w w :=
  ⟨⟨rfl, rfl, rfl, fun _ => rfl, fun _ _ => rfl⟩, rfl⟩

theorem Quiet.withFiles (quiet : Quiet p.path w after) {files : FileTable}
    (events : files.SameEvents after.files) : Quiet p.path w { after with files } :=
  ⟨⟨quiet.registered, quiet.passes, quiet.locks, fun path => (events path).trans (quiet.events path),
    quiet.units⟩, quiet.unit⟩

theorem Quiet.withCache (path : String) (w : CodeIndex) (cache : Syntax.ParseCache) :
    Quiet path w { w with cache } :=
  ⟨⟨rfl, rfl, rfl, fun _ => rfl, fun _ _ => rfl⟩, rfl⟩

theorem Quiet.withTextsSent (path : String) (w : CodeIndex) (textsSent : Nat) :
    Quiet path w { w with textsSent } :=
  ⟨⟨rfl, rfl, rfl, fun _ => rfl, fun _ _ => rfl⟩, rfl⟩

theorem Quiet.withVectors (path : String) (w : CodeIndex) (vectors : VectorIndex) :
    Quiet path w { w with state := { w.state with vectors } } :=
  ⟨⟨rfl, rfl, rfl, fun _ => rfl, fun _ _ => rfl⟩, rfl⟩

theorem Pass.isLatest_iff : p.isLatest w = true ↔ w.files.generation? p.path = some p.generation :=
  FileTable.isCurrent_iff

theorem Quiet.late (quiet : Quiet p.path w after) (late : p.isLatest after = false) :
    p.isLatest w = false := by
  rw [← Bool.not_eq_true, Pass.isLatest_iff] at late ⊢
  rwa [← quiet.events p.path]

theorem Pass.has_working (standing : p.phase.role = .working) :
    p.phase.role ≠ .early ∨ p.holdsLock w = true := by
  rw [standing]
  exact .inl fun same => by cases same

namespace Taken

/-- What is settled is reported, and nothing but the table of files changes. -/
theorem report {outcome : PassOutcome} (standing : p.phase.role = .settled outcome)
    {files : FileTable} (events : files.SameEvents w.files) (version : Option Nat) :
    Taken w request p (p.report { w with files } version outcome) := by
  refine .finished _ _ ((Quiet.refl _ w).withFiles events) ?_ (.inr standing)
  rw [standing]
  exact .inl fun same => by cases same

theorem supersede (quiet : Quiet p.path w after) (has : p.phase.role ≠ .early ∨ p.holdsLock w = true)
    (late : p.isLatest w = false) : Taken w request p (p.supersede after) :=
  .finished after _ quiet has (.inl ⟨rfl, late⟩)

theorem fail (quiet : Quiet p.path w after) (standing : p.phase.role = .working) {job : Job}
    (path : job.change.path = p.path) (cause : IndexError) :
    Taken w request p (p.fail after job cause) := by
  have has : p.phase.role ≠ .early ∨ p.holdsLock w = true := Pass.has_working standing
  unfold Pass.fail
  split
  · exact .finished after _ quiet has trivial
  · split
    · exact .finished after _ quiet has trivial
    · rename_i refused
      have late : after.files.isCurrent job.change.path p.generation = false :=
        (FileTable.fail_ok refused).1 rfl
      rw [path] at late
      exact .supersede quiet has (quiet.late late)
    · rename_i noted
      exact .finished _ _ (quiet.withFiles (FileTable.fail_ok noted).2) has trivial

theorem enter (standing : p.phase.role = .working) (stage : Stage) {phase : Phase}
    (role : phase.role = .working) (asked : phase.Asked w.registered request) :
    Taken w request p (p.enter w stage phase) := by
  have events := FileTable.enter_events w.files p.path p.generation stage
  have refused : (w.files.enter p.path p.generation stage).1 = false → p.isLatest w = false :=
    FileTable.enter_refused
  unfold Pass.enter
  split
  · rename_i files entered
    rw [entered] at events
    exact .worked _ _ standing ((Quiet.refl _ w).withFiles events) role asked
  · rename_i files late
    rw [late] at refused
    exact .supersede (.refl _ w) (Pass.has_working standing) (refused rfl)

theorem identify (path : p.path = request.path) (standing : p.phase.role = .working)
    {change : FileChange} (asked : request = .index change) :
    Taken w request p (p.identify w change) := by
  have here : p.path = change.path := by rw [path, asked]; rfl
  unfold Pass.identify
  split
  · exact .finished _ _ ((Quiet.refl _ w).withFiles (FileTable.abandon_events _ _ _))
      (Pass.has_working standing) trivial
  · rename_i language resolved
    rw [here] at resolved ⊢
    have job : (Pass.jobOf w change.path change language).Asked w.registered request :=
      ⟨asked, rfl, rfl, resolved⟩
    have goesOn : Taken w request p
        (p.goOn w (.beforeParsing (Pass.jobOf w change.path change language))) :=
      .worked w _ standing (.refl _ w) rfl job
    simp only
    split
    · rename_i entry held
      split
      · rename_i unchanged
        simp only [Bool.and_eq_true, decide_eq_true_eq] at unchanged
        have serves : w.state.Serves w.registered change :=
          ⟨entry, held, unchanged.1, unchanged.2 ▸ resolved⟩
        exact .settled w _ .unchanged standing (Quiet.refl _ w).toElsewhere (.inr (.refl _ w)) rfl
          trivial ⟨change, asked, serves⟩
      · exact goesOn
    · exact goesOn

theorem committing {plan : Plan} {records : List Record} (path : p.path = request.path)
    (standing : p.phase = .committing plan records)
    (asked : plan.job.Asked w.registered request) : Taken w request p (p.step w) := by
  have role : p.phase.role = .working := congrArg Phase.role standing
  have here : plan.job.change.path = p.path := asked.place path
  have place : plan.job.unit.path = p.path := asked.path.trans here
  have failed (vectors : VectorIndex) (cause : IndexError) :
      Taken w request p (p.fail { w with state := { w.state with vectors } } plan.job cause) :=
    .fail (.withVectors p.path w vectors) role here cause
  have known := IndexState.commit_cases w.state (plan.update records)
  simp only [Pass.step, standing]
  generalize w.state.commit (plan.update records) = result at known ⊢
  cases known with
  | invalid cause => exact failed w.state.vectors (.vector cause)
  | refused cause vectors _ _ => exact failed _ (.vector cause)
  | replaced vectors _ _ =>
      have unit (other : String) :
          (({ w.state with vectors } : IndexState).replaceUnit (plan.update records)).unit? other =
            if other = plan.job.unit.path then
              some (({ w.state with vectors } : IndexState).nextEntry (plan.update records))
            else w.state.unit? other := IndexState.unit?_replaceUnit _ _ other
      refine .settled _ _ (.indexed plan.counts) role ⟨rfl, rfl, rfl, fun _ => rfl, ?_⟩
        (.inl (by rw [standing]; rfl)) rfl asked ⟨plan.job.change, asked.change, ?_⟩
      · intro other different
        exact (unit other).trans (if_neg (place ▸ different))
      · refine ⟨_, (unit _).trans (if_pos asked.path.symm), asked.content, asked.language⟩

theorem removing (path : p.path = request.path) (standing : p.phase = .removing) :
    Taken w request p (p.step w) := by
  have unit (other : String) : (w.state.removeUnit p.path).2.unit? other =
      if other = p.path then none else w.state.unit? other := IndexState.unit?_removeUnit _ _ other
  have gone : (w.state.removeUnit p.path).2.unit? request.path = none :=
    (unit _).trans (if_pos path.symm)
  have role : p.phase.role = .working := congrArg Phase.role standing
  simp only [Pass.step, standing, Pass.remove]
  refine .settled _ _ _ role ⟨rfl, rfl, rfl, fun _ => rfl, ?_⟩ (.inl (by rw [standing]; rfl)) rfl
    trivial ?_
  · exact fun other different => (unit other).trans (if_neg different)
  · cases (w.state.removeUnit p.path).1 with
    | none => exact gone
    | some n => exact gone

end Taken

/-- A step of a pass does one of the things that steps can do. -/
theorem Pass.step_taken (w : CodeIndex) {request : Request} {p : Pass} (path : p.path = request.path)
    (asked : p.phase.Asked w.registered request) : Taken w request p (p.step w) := by
  cases standing : p.phase with
  | begun r =>
      rw [standing] at asked
      cases asked
      simp only [Pass.step, standing]
      exact .queued standing
  | waiting r =>
      rw [standing] at asked
      cases asked
      simp only [Pass.step, standing]
      cases holds : p.holdsLock w with
      | false => exact .idle
      | true =>
          cases latest : p.isLatest w with
          | false => exact .supersede (.refl _ w) (.inr holds) latest
          | true =>
              cases request with
              | index change => exact .admitted (.admitted change) standing holds latest rfl rfl
              | remove path => exact .admitted .removing standing holds latest rfl trivial
  | admitted change =>
      have role : p.phase.role = .working := congrArg Phase.role standing
      rw [standing] at asked
      simp only [Pass.step, standing]
      exact .identify path role asked
  | confirming version =>
      simp only [Pass.step, standing]
      exact .report (congrArg Phase.role standing) (FileTable.markIndexed_events _ _ _) _
  | beforeParsing job =>
      have role : p.phase.role = .working := congrArg Phase.role standing
      rw [standing] at asked
      simp only [Pass.step, standing]
      exact .worked _ _ role ((Quiet.refl _ w).withFiles (FileTable.enter_events _ _ _ _)) rfl asked
  | parsing job =>
      have role : p.phase.role = .working := congrArg Phase.role standing
      rw [standing] at asked
      have here : job.change.path = p.path := asked.place path
      simp only [Pass.step, standing]
      split
      · exact .fail (.withCache p.path w _) role here _
      · exact .worked _ _ role (.withCache p.path w _) rfl asked
  | beforeExtracting job parsed =>
      have role : p.phase.role = .working := congrArg Phase.role standing
      rw [standing] at asked
      simp only [Pass.step, standing]
      exact .enter role _ rfl asked
  | extracting job parsed =>
      have role : p.phase.role = .working := congrArg Phase.role standing
      rw [standing] at asked
      have here : job.change.path = p.path := asked.place path
      simp only [Pass.step, standing]
      split
      · exact .fail (.refl _ w) role here _
      · exact .worked w _ role (.refl _ w) rfl asked
  | beforeEmbedding plan =>
      have role : p.phase.role = .working := congrArg Phase.role standing
      rw [standing] at asked
      simp only [Pass.step, standing]
      split
      · exact .enter role _ rfl asked
      · exact .enter role _ rfl asked
  | embedding plan kept =>
      have role : p.phase.role = .working := congrArg Phase.role standing
      rw [standing] at asked
      have here : plan.job.change.path = p.path := asked.place path
      simp only [Pass.step, standing, Pass.embed]
      split
      · exact .fail (.withTextsSent p.path w _) role here _
      · exact .worked _ _ role (.withTextsSent p.path w _) rfl asked
  | beforeCommit plan records =>
      have role : p.phase.role = .working := congrArg Phase.role standing
      rw [standing] at asked
      simp only [Pass.step, standing]
      cases latest : p.isLatest w with
      | false => exact .supersede (.refl _ w) (Pass.has_working role) latest
      | true => exact .worked w _ role (.refl _ w) rfl asked
  | committing plan records =>
      rw [standing] at asked
      exact .committing path standing asked
  | marking plan =>
      simp only [Pass.step, standing]
      exact .report (congrArg Phase.role standing) (FileTable.markIndexed_events _ _ _) _
  | removing => exact .removing path standing
  | clearing outcome =>
      simp only [Pass.step, standing]
      exact .report (congrArg Phase.role standing) (FileTable.markRemoved_events _ _) _
  | ended result =>
      simp only [Pass.step, standing]
      exact .idle

end

end CodeSearch
