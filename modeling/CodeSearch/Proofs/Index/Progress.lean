import CodeSearch.Proofs.Index.Run
import CodeSearch.Proofs.Index.Turns

/-! # Work in progress

A pass that is superseded leaves the stage that it entered in the table, and relies on the pass of
the later event to note how that ends. Each pass that is not superseded does, unless it breaks down,
so that no path stands as worked on when all passes over it have returned. Prunings do not matter:
they drop no path that is worked on.
-/

namespace CodeSearch

open Time (Instant)

/-- A path is indexed for the first time while nothing is served of it, and indexed anew while
    something is. -/
structure FileEntry.Staged (e : FileEntry) : Prop where
  starting : ∀ stage, e.status = .starting stage → e.committed = false
  reindexing : ∀ stage, e.status = .reindexing stage → e.committed = true

section

variable {e : FileEntry}

theorem FileEntry.Staged.of_idle (idle : e.status.inProgress = false) : e.Staged := by
  constructor
  case starting =>
    intro stage standing
    rw [standing] at idle
    cases idle
  case reindexing =>
    intro stage standing
    rw [standing] at idle
    cases idle

theorem Note.abandoned_idle (e : FileEntry) : (Note.abandoned.on e).status.inProgress = false := by
  simp only [Note.on]
  split
  · cases e.committed with
    | true => rfl
    | false => rfl
  · rename_i idle
    exact Bool.eq_false_iff.mpr idle

/-- There is work on a path when its latest note is that a stage was entered. -/
theorem Note.inProgress {note : Note} (busy : (note.on e).status.inProgress = true) :
    note = .nothing ∨ ∃ stage, note = .entered stage := by
  cases note with
  | nothing => exact .inl rfl
  | entered stage => exact .inr ⟨stage, rfl⟩
  | failed | indexed | removed => cases busy
  | abandoned => exact nomatch (Note.abandoned_idle e).symm.trans busy

theorem Note.staged (note : Note) (h : e.Staged) : (note.on e).Staged := by
  cases note with
  | nothing => exact h
  | failed | indexed | removed => exact .of_idle rfl
  | abandoned => exact .of_idle (Note.abandoned_idle e)
  | entered stage =>
      cases flag : e.committed with
      | true => exact ⟨by simp [Note.on, flag], fun _ _ => flag⟩
      | false => exact ⟨fun _ _ => flag, by simp [Note.on, flag]⟩

end

namespace Session

/-! ## Who attends to a path -/

/-- While a path is worked on, the pass of its latest event is on its way, or a pass over it broke
    down. -/
def Attended (path : String) (s : Session) : Prop :=
  ∀ e, s.index.files.get? path = some e → e.status.inProgress = true →
    ∃ p, s.Over path p ∧
      (p.isLatest s.index = true ∧ ¬p.Ended ∨ p.phase = .ended (.error .beyondCalendar))

section

variable {s after : Session} {path : String}

/-- The latest pass over a path goes on or breaks down, as long as it does not note how it ended. -/
theorem Stepping.attended_self {request : Request} {p : Pass} {phase : Phase}
    (step : Stepping s request p .nothing phase) (latest : p.isLatest s.index = true)
    (unended : ¬p.Ended) :
    (p.step s.index).2.isLatest (p.step s.index).1 = true ∧ ¬(p.step s.index).2.Ended ∨
      (p.step s.index).2.phase = .ended (.error .beyondCalendar) := by
  have still := step.latest_self latest
  rw [Pass.Ended, step.after]
  cases step.noting with
  | idle => exact .inl ⟨still, unended⟩
  | goesOn _ _ stands => exact .inl ⟨still, fun ⟨result, ended⟩ => stands result ended⟩
  | brokeDown => exact .inr rfl
  | superseded _ _ _ late | refused _ _ late | unnoted _ _ late =>
      rw [latest] at late
      cases late

theorem Attended.stepped {request : Request} {p : Pass} {note : Note} {phase : Phase}
    (attended : Attended p.path s) (step : Stepping s request p note phase) :
    Attended p.path (s.advanced request p (p.step s.index)) := by
  have self := over_self request step.beside
  intro e' known busy
  obtain ⟨e, before, rfl⟩ := step.entry_before known
  rcases Note.inProgress busy with rfl | ⟨stage, rfl⟩
  · obtain ⟨q, ofPath, standing⟩ := attended e before busy
    rcases over_remains step.held ofPath with rfl | remains
    · refine ⟨_, self, ?_⟩
      rcases standing with ⟨latest, unended⟩ | broken
      · exact step.attended_self latest unended
      · exact .inr (by simp only [Pass.step, broken])
    · exact ⟨q, remains, standing.imp_left (.imp_left step.latest)⟩
  · cases step.noting with
    | entered _ _ _ latest stands =>
        have unended : ¬(p.step s.index).2.Ended := by
          rintro ⟨result, ended⟩
          exact stands result (step.after ▸ ended)
        exact ⟨_, self, .inl ⟨step.latest_self latest, unended⟩⟩

/-- Whoever attended to the path before, the pass of a new event does. -/
theorem Attended.begun (s : Session) (request : Request) :
    Attended request.path (s.begin request) := by
  intro e' known busy
  refine ⟨_, ⟨_, _, s.begin_has_new request, rfl⟩, .inl ⟨?_, nofun⟩⟩
  exact Pass.isLatest_iff.mpr ((s.begin_events request _).trans (if_pos rfl))

/-- Nobody leaves a path, and nothing more is known of it. -/
theorem Attended.carry (attended : Attended path s)
    (entry : ∀ e, after.index.files.get? path = some e → s.index.files.get? path = some e)
    (passes : ∀ p, s.Over path p → after.Over path p) : Attended path after := by
  intro e known busy
  obtain ⟨p, ofPath, standing⟩ := attended e (entry e known) busy
  refine ⟨p, passes p ofPath, standing.imp_left (.imp_left fun latest => ?_)⟩
  obtain ⟨_, _, -, rfl⟩ := ofPath
  rw [Pass.isLatest, FileTable.isCurrent, entry e known] at latest
  rw [Pass.isLatest, FileTable.isCurrent, known]
  exact latest

/-- When all passes over a path have returned, there is no work on it. -/
theorem Attended.rests (attended : Attended path s) (resting : s.rests path = true)
    {e : FileEntry} (known : s.index.files.get? path = some e) : e.status.inProgress = false := by
  rw [← Bool.not_eq_true]
  intro busy
  obtain ⟨p, ofPath, ⟨-, unended⟩ | broken⟩ := attended e known busy
  · exact unended (.of_returned (rests_returned resting ofPath))
  · have returned := rests_returned resting ofPath
    rw [broken] at returned
    cases returned

end

/-! ## Whole runs -/

/-- What is true of a path all along a run. -/
structure Progressing (path : String) (s : Session) : Prop where
  answering : s.Answering
  tidy : s.index.files.Tidy
  staged : ∀ e, s.index.files.get? path = some e → e.Staged
  attended : s.Attended path

section

variable {s : Session} {path : String}

theorem Progressing.start {w : CodeIndex} (files : w.files = {}) (path : String) :
    (start w).Progressing path := by
  have unknown (e : FileEntry) : (Session.start w).index.files.get? path ≠ some e := by
    rw [show (Session.start w).index.files = {} from files]
    exact nofun
  refine ⟨.start w, ?_, fun e known => absurd known (unknown e),
    fun e known => absurd known (unknown e)⟩
  rw [show (Session.start w).index.files = {} from files]
  exact .empty

theorem Progressing.move (h : Progressing path s) (m : Move) : Progressing path (s.move m) := by
  refine ⟨h.answering.move m, h.answering.tidy_move h.tidy m, ?staged, ?attended⟩
  case staged =>
    intro e' known
    rcases h.answering.move_cases m path with
      ⟨same, -⟩ | ⟨request, rfl, rfl⟩ | ⟨_, _, _, _, step, rfl, moved, -⟩
    · exact h.staged e' (same.entry.symm.trans known)
    · obtain ⟨e, before | rfl, status, flag⟩ := begin_entry known
      · have staged := h.staged e before
        exact ⟨fun stage standing => flag.trans (staged.starting stage (status.symm.trans standing)),
          fun stage standing => flag.trans (staged.reindexing stage (status.symm.trans standing))⟩
      · exact .of_idle (congrArg FileStatus.inProgress status)
    · rw [moved] at known
      obtain ⟨e, before, rfl⟩ := step.entry_before known
      exact Note.staged _ (h.staged e before)
  case attended =>
    rcases h.answering.move_cases m path with
      ⟨same, -⟩ | ⟨request, rfl, rfl⟩ | ⟨_, _, _, _, step, rfl, moved, -⟩
    · exact h.attended.carry (fun e known => same.entry.symm.trans known) fun p => (same.passes p).mpr
    · exact .begun s request
    · exact moved ▸ h.attended.stepped step

theorem Progressing.sweep (h : Progressing path s) (part : Sweep) :
    Progressing path (s.turn (.sweep part)) := by
  have before (e : FileEntry) (known : (s.index.sweep part).files.get? path = some e) :
      s.index.files.get? path = some e := by
    cases part with
    | symbols | locks => exact known
    | paths => exact h.tidy.known_before_prune known
  exact ⟨h.answering.sweep part, h.answering.tidy_turn h.tidy _,
    fun e known => h.staged e (before e known), h.attended.carry before fun _ => id⟩

theorem Progressing.turnAll (h : Progressing path s) (turns : List Turn) :
    Progressing path (s.turnAll turns) := by
  refine List.foldlRecOn (motive := Progressing path) turns _ h fun s before t _ => ?_
  cases t with
  | move m => exact before.move m
  | sweep part => exact before.sweep part

end

end Session

namespace CodeIndex

/-- However passes and sweeps take turns, a path stands as indexed for the first time only while
    nothing is served of it, and as indexed anew only while something is; and when all passes over
    it have returned, it does not stand as worked on. -/
theorem never_left_in_progress {c : IndexConfig} {parts : IndexParts} {now : Instant}
    {w : CodeIndex} (built : build c parts now = .ok w) (turns : List Turn) (path : String) :
    (∀ e, ((Session.start w).turnAll turns).index.files.get? path = some e → e.Staged) ∧
      (((Session.start w).turnAll turns).rests path = true →
        ∀ e, ((Session.start w).turnAll turns).index.files.get? path = some e →
          e.status.inProgress = false) := by
  obtain ⟨-, -, -, -, files, -, -⟩ := build_ok built
  have kept := (Session.Progressing.start files path).turnAll turns
  exact ⟨kept.staged, fun resting e known => kept.attended.rests resting known⟩

/-- A change comes in while another one is worked on; symbols, paths and locks are swept before it
    takes over, and after it was indexed. -/
def sweptOvertaking : List Turn :=
  .move (.begin (.index (oneFunction "f()"))) :: List.replicate 5 (.move (.step 0)) ++
    [.move (.begin (.index (oneFunction "f(x)"))), .sweep .symbols, .move (.step 1), .sweep .paths,
      .sweep .locks] ++
    List.replicate 5 (.move (.step 0)) ++ List.replicate 12 (.move (.step 1)) ++
    [.sweep .symbols, .sweep .paths, .sweep .locks]

/-- The path is worked on when the later change comes in, and no more when both have returned. -/
theorem sweptOvertaking_not_left_in_progress :
    (∃ e, ((Session.start smallIndex).turnAll (sweptOvertaking.take 11)).index.files.get? "a.py" =
      some e ∧ e.status = .starting .parsing ∧ e.Staged) ∧
    ((Session.start smallIndex).turnAll sweptOvertaking).rests "a.py" = true ∧
    (∃ e, ((Session.start smallIndex).turnAll sweptOvertaking).index.files.get? "a.py" = some e ∧
      e.status.inProgress = false) := by
  have computed :
      ((Session.start smallIndex).turnAll (sweptOvertaking.take 11)).index.files.status "a.py" =
        some (.starting .parsing) ∧
      ((Session.start smallIndex).turnAll sweptOvertaking).rests "a.py" = true ∧
      (((Session.start smallIndex).turnAll sweptOvertaking).index.files.get? "a.py").isSome := by
    decide +kernel
  obtain ⟨during, resting, known⟩ := computed
  obtain ⟨e, heldDuring, standing⟩ := Option.map_eq_some_iff.mp during
  obtain ⟨e', held⟩ := Option.isSome_iff_exists.mp known
  obtain ⟨staged, -⟩ := never_left_in_progress build_small (sweptOvertaking.take 11) "a.py"
  obtain ⟨-, rested⟩ := never_left_in_progress build_small sweptOvertaking "a.py"
  exact ⟨⟨e, heldDuring, standing, staged e heldDuring⟩, resting, e', held, rested resting e' held⟩

end CodeIndex

end CodeSearch
