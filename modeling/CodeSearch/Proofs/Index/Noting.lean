import CodeSearch.Proofs.Index.Step

/-! # What passes note in the table of files

Whatever a pass notes, it notes of its own path. Beside the note that a removed file is served no
more, it notes only what is of the latest event for the path. Each step notes one thing at most,
and a pass that ends without a note was superseded, or broke down.
-/

namespace CodeSearch

/-! ## Notes -/

/-- What can be noted of a path. -/
inductive Note where
  | nothing
  | entered (stage : Stage)
  | abandoned
  | failed (failure : Failure) (retry : PendingRetry)
  | indexed
  | removed

/-- The entry of a path after a note. -/
def Note.on : Note → FileEntry → FileEntry
  | nothing, e => e
  | entered stage, e =>
    { e with status := if e.committed then .reindexing stage else .starting stage }
  | abandoned, e =>
    if e.status.inProgress then { e with status := if e.committed then .indexed else .unindexed }
    else e
  | failed failure retry, e => { e with status := .failed failure, retry := some retry }
  | indexed, e => { e with status := .indexed, committed := true, retry := none }
  | removed, e => { e with status := .unindexed, committed := false, retry := none }

namespace FileTable

open Time (Instant)

/-- One table differs from another by what is noted of a path. -/
structure Notes (t : FileTable) (path : String) (note : Note) (after : FileTable) : Prop where
  reads : ∀ other,
    after.get? other = if other = path then (t.get? path).map note.on else t.get? other
  distinct : (Keyed.keys t.entries).Nodup → (Keyed.keys after.entries).Nodup

section

variable {t after : FileTable} {path : String} {generation : Nat} {note : Note}

theorem Notes.self (notes : t.Notes path note after) :
    after.get? path = (t.get? path).map note.on := by
  rw [notes.reads, if_pos rfl]

theorem Notes.other (notes : t.Notes path note after) {other : String} (different : other ≠ path) :
    after.get? other = t.get? other := by
  rw [notes.reads, if_neg different]

/-- A note that leaves the entry of its path as it is. -/
theorem notes_same (same : (t.get? path).map note.on = t.get? path) : t.Notes path note t := by
  refine ⟨fun other => ?_, id⟩
  split
  · rename_i here
    rw [here, same]
  · rfl

theorem notes_nothing (t : FileTable) (path : String) : t.Notes path .nothing t :=
  notes_same (by rw [show Note.on .nothing = id from rfl, Option.map_id_fun, id_eq])

theorem notes_put {e : FileEntry} (held : t.get? path = some e) :
    t.Notes path note (t.put path (note.on e)) := by
  refine ⟨fun other => ?_, fun distinct => Keyed.nodup_put distinct _ _⟩
  rw [held, Option.map_some]
  exact Keyed.get?_put t.entries path other _

theorem current?_of_isCurrent (current : t.isCurrent path generation = true) :
    ∃ e, t.get? path = some e ∧ t.current? path generation = some e := by
  obtain ⟨e, held, rfl⟩ := Option.map_eq_some_iff.mp (isCurrent_iff.mp current)
  exact ⟨e, held, Option.filter_eq_some_iff.mpr ⟨held, beq_self_eq_true _⟩⟩

theorem current?_of_late (late : t.isCurrent path generation = false) :
    t.current? path generation = none := by
  cases held : t.current? path generation with
  | none => rfl
  | some e =>
      obtain ⟨known, same⟩ := Option.filter_eq_some_iff.mp held
      rw [isCurrent, known, Option.any_some, same] at late
      cases late

/-! ### What the operations of the table note -/

theorem enter_notes (current : t.isCurrent path generation = true) (stage : Stage) :
    t.Notes path (.entered stage) (t.enter path generation stage).2 := by
  obtain ⟨e, held, found⟩ := current?_of_isCurrent current
  simp only [enter, found]
  exact notes_put held

theorem enter_late (late : t.isCurrent path generation = false) (stage : Stage) :
    t.enter path generation stage = (false, t) := by
  simp only [enter, current?_of_late late]

theorem markIndexed_notes (current : t.isCurrent path generation = true) :
    t.Notes path .indexed (t.markIndexed path generation) := by
  obtain ⟨e, held, found⟩ := current?_of_isCurrent current
  simp only [markIndexed, found]
  exact notes_put held

theorem markIndexed_late (late : t.isCurrent path generation = false) :
    t.markIndexed path generation = t := by
  simp only [markIndexed, current?_of_late late]

theorem abandon_notes (current : t.isCurrent path generation = true) :
    t.Notes path .abandoned (t.abandon path generation) := by
  obtain ⟨e, held, found⟩ := current?_of_isCurrent current
  have noted : t.Notes path .abandoned _ := notes_put held
  by_cases busy : e.status.inProgress
  · rw [Note.on, if_pos busy] at noted
    simp only [abandon, found, busy, if_true]
    exact noted
  · have still : t.abandon path generation = t := by simp only [abandon, found, busy]; rfl
    rw [still]
    exact notes_same (by rw [held, Option.map_some, Note.on, if_neg busy])

theorem abandon_late (late : t.isCurrent path generation = false) :
    t.abandon path generation = t := by
  simp only [abandon, current?_of_late late]

theorem markRemoved_notes (t : FileTable) (path : String) :
    t.Notes path .removed (t.markRemoved path) := by
  cases held : t.get? path with
  | some e =>
      simp only [markRemoved, held]
      exact notes_put held
  | none =>
      simp only [markRemoved, held]
      exact notes_same (by rw [held, Option.map_none])

/-- A failure that is noted is that of the latest event, and its content is kept. -/
theorem fail_notes {backoff : Backoff} {now : Instant} {kind : FailureKind}
    {error contentHash : String} {change : FileChange} {failure : Failure}
    (h : t.fail backoff now generation kind error change contentHash = .ok (some failure, after)) :
    t.isCurrent change.path generation = true ∧
      t.Notes change.path (.failed failure ⟨change, contentHash, failure.attempts⟩) after := by
  unfold fail at h
  cases found : t.current? change.path generation with
  | none =>
      rw [found] at h
      cases h
  | some e =>
      have held : t.get? change.path = some e := current?_some found
      have latest : t.isCurrent change.path generation = true := by
        rw [isCurrent, held, Option.any_some]
        exact (Option.filter_eq_some_iff.mp found).2
      simp only [found, bind, Except.bind, pure, Except.pure] at h
      split at h
      · split at h
        · cases h
        · cases h
          exact ⟨latest, notes_put held⟩
      · cases h
        exact ⟨latest, notes_put held⟩

end

end FileTable

/-! ## What a step notes -/

/-- The pass has reported, or broken down. -/
def Pass.Ended (p : Pass) : Prop :=
  ∃ result, p.phase = .ended result

/-- The pass has reported. One that broke down did not. -/
def Phase.returned : Phase → Bool
  | .ended (.error .beyondCalendar) => false
  | .ended _ => true
  | _ => false

theorem Pass.Ended.of_returned {p : Pass} (returned : p.phase.returned = true) : p.Ended := by
  cases standing : p.phase with
  | ended result => exact ⟨result, standing⟩
  | _ =>
      rw [standing] at returned
      cases returned

/-- Whether the pass looked at the table for the last time, and did not note its commit yet. -/
def Phase.commits : Phase → Bool
  | .committing _ _ | .marking _ => true
  | _ => false

/-- Whether the pass is to note that the content of its change is served. -/
def Phase.confirms : Phase → Bool
  | .confirming _ | .marking _ => true
  | _ => false

/-- Whether the pass is to note that its file is served no more. -/
def Phase.clears : Phase → Bool
  | .clearing _ => true
  | _ => false

/-- The pass does not have its result yet. -/
def Phase.Open (phase : Phase) : Prop :=
  phase.confirms = false ∧ phase.clears = false

/-- Whether the pass still has its commit, its removal and its result ahead of it. -/
def Phase.undecided : Phase → Bool
  | .committing _ _ | .marking _ | .clearing _ | .ended _ => false
  | _ => true

theorem Phase.undecided_stands {phase : Phase} (ahead : phase.undecided = true) :
    (∀ result, phase ≠ .ended result) ∧ phase.commits = false ∧ phase.clears = false := by
  cases phase with
  | committing | marking | clearing | ended => cases ahead
  | _ => exact ⟨fun _ => Phase.noConfusion, rfl, rfl⟩

/-- The job that the pass has at hand. -/
def Phase.job? : Phase → Option Job
  | .beforeParsing job | .parsing job | .beforeExtracting job _ | .extracting job _ => some job
  | .beforeEmbedding plan | .embedding plan _ | .beforeCommit plan _ | .committing plan _
  | .marking plan => some plan.job
  | _ => none

/-- The failure that is noted of a job that ends with an error, if the error fails the file. -/
def Pass.recorded? (w : CodeIndex) (p : Pass) (job : Job) (cause : IndexError) : Option Failure :=
  cause.failureKind.bind fun kind =>
    match w.files.fail w.config.retry w.now p.generation kind cause.message job.change
        job.unit.contentHash with
    | .ok (failure, _) => failure
    | .error _ => none

/-- The change at hand is read in no language. -/
def Pass.unread (w : CodeIndex) (p : Pass) : Bool :=
  match p.phase with
  | .admitted change => (Language.resolve w.registered p.path change.hint).isNone
  | _ => false

/-- What a step of a pass notes, and where the pass stands after it. -/
inductive Noting (w : CodeIndex) (p : Pass) : Note → Phase → Prop where
  | idle : Noting w p .nothing p.phase
  | goesOn (phase : Phase) (unsettled : p.phase.Open) (stands : ∀ result, phase ≠ .ended result)
      (commits : phase.commits = true → p.phase.commits = true ∨ p.isLatest w = true)
      (clears : phase.clears = true → p.phase = .removing) : Noting w p .nothing phase
  | superseded (ack : Ack) (unsettled : p.phase.Open) (outcome : ack.outcome = .superseded)
      (late : p.isLatest w = false) : Noting w p .nothing (.ended (.ok ack))
  | brokeDown (unsettled : p.phase.Open) : Noting w p .nothing (.ended (.error .beyondCalendar))
  /-- The language of a change that is not the latest is not known. -/
  | refused (cause : IndexError) (unsettled : p.phase.Open) (late : p.isLatest w = false)
      (unmarked : cause.failureKind = none) : Noting w p .nothing (.ended (.error (.index cause)))
  | abandoned (cause : IndexError) (unsettled : p.phase.Open) (latest : p.isLatest w = true)
      (unmarked : cause.failureKind = none) (unread : p.unread w = true) :
      Noting w p .abandoned (.ended (.error (.index cause)))
  | entered (stage : Stage) (phase : Phase) (unsettled : p.phase.Open)
      (latest : p.isLatest w = true) (stands : ∀ result, phase ≠ .ended result)
      (uncommitted : phase.commits = false) (remains : phase.Open) :
      Noting w p (.entered stage) phase
  | failed (failure : Failure) (retry : PendingRetry) (cause : IndexError)
      (unsettled : p.phase.Open) (latest : p.isLatest w = true)
      (place : retry.change.path = p.path) (job : Job) (hand : p.phase.job? = some job)
      (recorded : p.recorded? w job cause = some failure)
      (kept : retry = ⟨job.change, job.unit.contentHash, failure.attempts⟩) :
      Noting w p (.failed failure retry) (.ended (.error (.index cause)))
  | indexed (ack : Ack) (confirms : p.phase.confirms = true) (latest : p.isLatest w = true) :
      Noting w p .indexed (.ended (.ok ack))
  | unnoted (ack : Ack) (confirms : p.phase.confirms = true) (late : p.isLatest w = false) :
      Noting w p .nothing (.ended (.ok ack))
  | removed (ack : Ack) (clears : p.phase.clears = true) : Noting w p .removed (.ended (.ok ack))

/-- A step notes something of the path of its pass, and nothing of other paths. -/
def Pass.Noted (w : CodeIndex) (p : Pass) (taken : CodeIndex × Pass) : Prop :=
  ∃ note, Noting w p note taken.2.phase ∧ w.files.Notes p.path note taken.1.files

section

variable {w after : CodeIndex} {request : Request} {p : Pass} {note : Note} {phase : Phase}

theorem Phase.confirms_of_clears (clears : phase.clears = true) : phase.confirms = false := by
  cases phase with
  | clearing outcome => rfl
  | _ => cases clears

/-- A pass that is to note that its file is served no more notes that, or stays. -/
theorem Noting.of_clears (noting : Noting w p note phase) (clears : p.phase.clears = true) :
    note = .removed ∨ note = .nothing ∧ phase = p.phase := by
  have settled : ¬p.phase.Open := fun ⟨_, unclear⟩ => by
    rw [clears] at unclear
    cases unclear
  have denied : ¬p.phase.confirms = true := by
    rw [Phase.confirms_of_clears clears]
    exact Bool.false_ne_true
  cases noting with
  | idle => exact .inr ⟨rfl, rfl⟩
  | removed => exact .inl rfl
  | indexed _ confirms | unnoted _ confirms => exact absurd confirms denied
  | goesOn _ unsettled | superseded _ unsettled | brokeDown unsettled | refused _ unsettled
  | abandoned _ unsettled | entered _ _ unsettled | failed _ _ _ unsettled =>
      exact absurd unsettled settled

/-- A pass that is to note that its content is served notes that, comes too late, or stays. -/
theorem Noting.of_confirms (noting : Noting w p note phase) (confirms : p.phase.confirms = true) :
    note = .indexed ∨ note = .nothing ∧ (phase = p.phase ∨ p.isLatest w = false) := by
  have settled : ¬p.phase.Open := fun ⟨unsure, _⟩ => by
    rw [confirms] at unsure
    cases unsure
  cases noting with
  | idle => exact .inr ⟨rfl, .inl rfl⟩
  | indexed => exact .inl rfl
  | unnoted _ _ late => exact .inr ⟨rfl, .inr late⟩
  | removed _ clears =>
      rw [Phase.confirms_of_clears clears] at confirms
      cases confirms
  | goesOn _ unsettled | superseded _ unsettled | brokeDown unsettled | refused _ unsettled
  | abandoned _ unsettled | entered _ _ unsettled | failed _ _ _ unsettled =>
      exact absurd unsettled settled

namespace Pass

theorem noted_goOn (files : after.files = w.files) {phase : Phase} (unsettled : p.phase.Open)
    (stands : ∀ result, phase ≠ .ended result)
    (commits : phase.commits = true → p.phase.commits = true ∨ p.isLatest w = true)
    (clears : phase.clears = true → p.phase = .removing) : p.Noted w (p.goOn after phase) :=
  ⟨.nothing, .goesOn phase unsettled stands commits clears, files ▸ FileTable.notes_nothing _ _⟩

theorem noted_goOnward (files : after.files = w.files) {phase : Phase} (unsettled : p.phase.Open)
    (ahead : phase.undecided = true) : p.Noted w (p.goOn after phase) := by
  obtain ⟨stands, uncommitted, unclear⟩ := Phase.undecided_stands ahead
  refine noted_goOn files unsettled stands (fun commits => ?_) fun clears => ?_
  · rw [uncommitted] at commits
    cases commits
  · rw [unclear] at clears
    cases clears

theorem noted_supersede (files : after.files = w.files) (unsettled : p.phase.Open)
    (late : p.isLatest w = false) : p.Noted w (p.supersede after) :=
  ⟨.nothing, .superseded _ unsettled rfl late, files ▸ FileTable.notes_nothing _ _⟩

theorem noted_fail (same : ∃ cache textsSent state, after = { w with cache, textsSent, state })
    (unsettled : p.phase.Open) {job : Job} (hand : p.phase.job? = some job)
    (place : job.change.path = p.path) {cause : IndexError} {kind : FailureKind}
    (fails : cause.failureKind = some kind) : p.Noted w (p.fail after job cause) := by
  have recorded : p.recorded? w job cause = match w.files.fail w.config.retry w.now p.generation
      kind cause.message job.change job.unit.contentHash with
    | .ok (failure, _) => failure
    | .error _ => none := by rw [recorded?, fails, Option.bind_some]
  obtain ⟨cache, textsSent, state, rfl⟩ := same
  simp only [fail, fails]
  split
  · -- no date can be given for the next attempt
    exact ⟨.nothing, .brokeDown unsettled, FileTable.notes_nothing _ _⟩
  · rename_i refused
    have late : w.files.isCurrent job.change.path p.generation = false :=
      (FileTable.fail_ok refused).1 rfl
    rw [place] at late
    exact noted_supersede rfl unsettled late
  · rename_i failure table noted
    obtain ⟨latest, notes⟩ := FileTable.fail_notes noted
    rw [place] at latest notes
    rw [noted] at recorded
    exact ⟨_, .failed failure _ cause unsettled latest place job hand recorded rfl, notes⟩

theorem noted_enter (unsettled : p.phase.Open) (stage : Stage) {phase : Phase}
    (ahead : phase.undecided = true) (unsure : phase.confirms = false) :
    p.Noted w (p.enter w stage phase) := by
  obtain ⟨stands, uncommitted, unclear⟩ := Phase.undecided_stands ahead
  cases latest : p.isLatest w with
  | true =>
      have notes := FileTable.enter_notes latest stage
      unfold enter
      split
      · rename_i files entered
        rw [entered] at notes
        exact ⟨_, .entered stage phase unsettled latest stands uncommitted ⟨unsure, unclear⟩, notes⟩
      · rename_i files refused
        have late : p.isLatest w = false := FileTable.enter_refused (by rw [refused])
        rw [latest] at late
        cases late
  | false =>
      simp only [enter, FileTable.enter_late latest stage]
      exact noted_supersede rfl unsettled latest

theorem noted_identify {change : FileChange} (standing : p.phase = .admitted change) :
    p.Noted w (p.identify w change) := by
  have unsettled : p.phase.Open := standing ▸ ⟨rfl, rfl⟩
  unfold identify
  split
  · rename_i unknown
    have unread : p.unread w = true := by simp only [unread, standing, unknown, Option.isNone_none]
    cases latest : p.isLatest w with
    | true => exact ⟨_, .abandoned _ unsettled latest rfl unread, FileTable.abandon_notes latest⟩
    | false =>
        refine ⟨_, .refused _ unsettled latest rfl, ?_⟩
        have same : w.files.abandon p.path p.generation = w.files := FileTable.abandon_late latest
        simp only [finish, same]
        exact FileTable.notes_nothing _ _
  · simp only
    split
    · split
      · exact noted_goOnward rfl unsettled rfl
      · exact noted_goOnward rfl unsettled rfl
    · exact noted_goOnward rfl unsettled rfl

theorem noted_confirm (confirms : p.phase.confirms = true) (version : Option Nat)
    (outcome : PassOutcome) : p.Noted w
      (p.report { w with files := w.files.markIndexed p.path p.generation } version outcome) := by
  cases latest : p.isLatest w with
  | true => exact ⟨_, .indexed _ confirms latest, FileTable.markIndexed_notes latest⟩
  | false =>
      refine ⟨_, .unnoted _ confirms latest, ?_⟩
      have same : w.files.markIndexed p.path p.generation = w.files :=
        FileTable.markIndexed_late latest
      simp only [report, finish, same]
      exact FileTable.notes_nothing _ _

/-- Every step notes one thing at most. -/
theorem step_noted (w : CodeIndex) {p : Pass} (path : p.path = request.path)
    (asked : p.phase.Asked w.registered request) : p.Noted w (p.step w) := by
  have idle : p.Noted w (w, p) := ⟨.nothing, .idle, FileTable.notes_nothing _ _⟩
  cases standing : p.phase with
  | begun r =>
      have unsettled : p.phase.Open := standing ▸ ⟨rfl, rfl⟩
      simp only [step, standing]
      exact noted_goOnward rfl unsettled rfl
  | waiting r =>
      have unsettled : p.phase.Open := standing ▸ ⟨rfl, rfl⟩
      simp only [step, standing]
      split
      · exact idle
      · split
        · rename_i late
          exact noted_supersede rfl unsettled (by simpa using late)
        · cases r with
          | index change => exact noted_goOnward rfl unsettled rfl
          | remove path => exact noted_goOnward rfl unsettled rfl
  | admitted change =>
      simp only [step, standing]
      exact noted_identify standing
  | confirming version =>
      simp only [step, standing]
      exact noted_confirm (standing ▸ rfl) _ _
  | beforeParsing job =>
      have unsettled : p.phase.Open := standing ▸ ⟨rfl, rfl⟩
      simp only [step, standing]
      cases latest : p.isLatest w with
      | true =>
          have stands (result) : Phase.parsing job ≠ .ended result :=
            (Phase.undecided_stands rfl).1 result
          exact ⟨_, .entered .parsing _ unsettled latest stands rfl ⟨rfl, rfl⟩,
            FileTable.enter_notes latest _⟩
      | false =>
          rw [FileTable.enter_late latest]
          exact noted_goOnward rfl unsettled rfl
  | parsing job =>
      have unsettled : p.phase.Open := standing ▸ ⟨rfl, rfl⟩
      rw [standing] at asked
      have place : job.change.path = p.path := asked.place path
      simp only [step, standing]
      split
      · exact noted_fail ⟨_, _, _, rfl⟩ unsettled (standing ▸ rfl) place (by rfl)
      · exact noted_goOnward rfl unsettled rfl
  | beforeExtracting job parsed =>
      simp only [step, standing]
      exact noted_enter (standing ▸ ⟨rfl, rfl⟩) _ rfl rfl
  | extracting job parsed =>
      have unsettled : p.phase.Open := standing ▸ ⟨rfl, rfl⟩
      rw [standing] at asked
      have place : job.change.path = p.path := asked.place path
      simp only [step, standing]
      split
      · exact noted_fail ⟨_, _, _, rfl⟩ unsettled (standing ▸ rfl) place (by rfl)
      · exact noted_goOnward rfl unsettled rfl
  | beforeEmbedding plan =>
      simp only [step, standing]
      split
      · exact noted_enter (standing ▸ ⟨rfl, rfl⟩) _ rfl rfl
      · exact noted_enter (standing ▸ ⟨rfl, rfl⟩) _ rfl rfl
  | embedding plan kept =>
      have unsettled : p.phase.Open := standing ▸ ⟨rfl, rfl⟩
      rw [standing] at asked
      have place : plan.job.change.path = p.path := asked.place path
      simp only [step, standing, embed]
      split
      · exact noted_fail ⟨_, _, _, rfl⟩ unsettled (standing ▸ rfl) place (by rfl)
      · exact noted_goOnward rfl unsettled rfl
  | beforeCommit plan records =>
      have unsettled : p.phase.Open := standing ▸ ⟨rfl, rfl⟩
      simp only [step, standing]
      cases latest : p.isLatest w with
      | true =>
          exact noted_goOn rfl unsettled (by simp) (fun _ => .inr latest) (by simp [Phase.clears])
      | false => exact noted_supersede rfl unsettled latest
  | committing plan records =>
      have unsettled : p.phase.Open := standing ▸ ⟨rfl, rfl⟩
      rw [standing] at asked
      have place : plan.job.change.path = p.path := asked.place path
      simp only [step, standing]
      split
      · exact noted_fail ⟨_, _, _, rfl⟩ unsettled (standing ▸ rfl) place (by rfl)
      · exact noted_goOn rfl unsettled (by simp) (fun _ => .inl (standing ▸ rfl))
          (by simp [Phase.clears])
  | marking plan =>
      simp only [step, standing]
      exact noted_confirm (standing ▸ rfl) _ _
  | removing =>
      simp only [step, standing, remove]
      exact noted_goOn rfl (standing ▸ ⟨rfl, rfl⟩) (by simp) (by simp [Phase.commits])
        fun _ => standing
  | clearing outcome =>
      simp only [step, standing]
      exact ⟨_, .removed _ (standing ▸ rfl), FileTable.markRemoved_notes _ _⟩
  | ended result =>
      simp only [step, standing]
      exact idle

end Pass

end

end CodeSearch
