import CodeSearch.Proofs.Index.Recovery
import CodeSearch.Proofs.Index.Status

/-! # Failures that stay visible

What is kept of a failure to be tried again stays until the path is served, removed, or fails anew.
Whether the path is seen to have failed is another matter: a pass that enters a stage takes the
status, and when it is superseded, the pass of the later event has to put it right. One whose
content is read in no language does not: it finds the stage, and notes only whether the path is
served. As long as that does not happen, a path whose last result was a failure stands as failed,
and its content is due.
-/

namespace CodeSearch

open Time (Instant)

/-! ## How passes end -/

/-- What the end of a pass means for the failures of its path. -/
inductive Ending where
  /-- The file is served, or it was asked to be served no more. -/
  | resolved
  /-- A change failed. -/
  | failed (failure : Failure) (change : FileChange)

/-- The content failed, and is to be tried again by a time. -/
def Ending.retriedBy (time : Instant) : Ending → Bool
  | failed failure _ => failure.nextRetryAt.any (·.le time)
  | resolved => false

/-- How a pass ends for its path, if it does so in its next step and is neither superseded nor of
    content that is read in no language. -/
def Pass.ending? (w : CodeIndex) (p : Pass) : Option Ending :=
  match p.ends? w with
  | some (.ok ack) => if ack.outcome = .superseded then none else some .resolved
  | some (.error (.index cause)) =>
    p.phase.job?.bind fun job =>
      (p.recorded? w job cause).map fun failure => .failed failure job.change
  | _ => none

namespace Session

/-- How the passes over a path end for it, in the order in which they do so. -/
def endings (path : String) (s : Session) (moves : List Move) : List Ending :=
  s.log (Pass.over path Pass.ending?) (moves.map .move)

end Session

/-- The pass of the latest event gives up its change while the path stands as worked on, and
    something is kept of it to be tried again. -/
def Pass.hides (w : CodeIndex) (p : Pass) : Bool :=
  p.unread w && p.isLatest w &&
    (w.files.get? p.path).any fun e => e.status.inProgress && e.retry.isSome

namespace Session

/-- A failure of a path is taken from sight. -/
def hides (path : String) (s : Session) (m : Move) : Bool :=
  (s.mover m).any fun p => p.path == path && p.hides s.index

end Session

/-! ## What an entry tells of a failure -/

/-- The content that failed is kept, with the number of its attempts. -/
def FileEntry.Keeps (failure : Failure) (change : FileChange) (e : FileEntry) : Prop :=
  ∃ contentHash, e.retry = some ⟨change, contentHash, failure.attempts⟩

/-- The path stands as failed, or as worked on since. -/
def FileEntry.Shows (failure : Failure) (change : FileChange) (e : FileEntry) : Prop :=
  e.Keeps failure change ∧ (e.status = .failed failure ∨ e.status.inProgress = true)

/-- What a failure brings about, and an event or a stage leaves. -/
structure Lasting (tells : Failure → FileChange → FileEntry → Prop) : Prop where
  noted : ∀ failure change contentHash e,
    tells failure change ((Note.failed failure ⟨change, contentHash, failure.attempts⟩).on e)
  begun : ∀ failure change e generation, tells failure change e →
    tells failure change { e with generation }
  entered : ∀ failure change e stage, tells failure change e →
    tells failure change ((Note.entered stage).on e)

theorem keeps_lasting : Lasting FileEntry.Keeps :=
  ⟨fun _ _ contentHash _ => ⟨contentHash, rfl⟩, fun _ _ _ _ => id, fun _ _ _ _ => id⟩

theorem shows_lasting : Lasting FileEntry.Shows := by
  constructor
  case noted => exact fun failure change contentHash e => ⟨⟨contentHash, rfl⟩, .inl rfl⟩
  case begun => exact fun _ _ _ _ => id
  case entered =>
    intro failure change e stage shows
    refine ⟨shows.1, .inr ?_⟩
    simp only [Note.on]
    cases e.committed with
    | true => rfl
    | false => rfl

/-! ## How a step ends a pass -/

section

variable {w : CodeIndex} {p : Pass}

theorem Phase.result?_of_job {phase : Phase} {job : Job} (hand : phase.job? = some job) :
    phase.result? = none := by
  cases phase with
  | ended => cases hand
  | _ => rfl

theorem Pass.ending?_resolved {ack : Ack} (goesOn : p.phase.result? = none)
    (ended : (p.step w).2.phase = .ended (.ok ack)) (outcome : ack.outcome ≠ .superseded) :
    p.ending? w = some .resolved := by
  have ends : p.ends? w = some (.ok ack) := by
    rw [ends?, goesOn, ended]
    rfl
  simp only [ending?, ends, if_neg outcome]

theorem Pass.ending?_failed {job : Job} {cause : IndexError} {failure : Failure}
    (hand : p.phase.job? = some job) (recorded : p.recorded? w job cause = some failure)
    (ended : (p.step w).2.phase = .ended (.error (.index cause))) :
    p.ending? w = some (.failed failure job.change) := by
  have ends : p.ends? w = some (.error (.index cause)) := by
    rw [ends?, Phase.result?_of_job hand, ended]
    rfl
  simp only [ending?, ends, hand, Option.bind_some, recorded, Option.map_some]

/-- Only a failure that is recorded ends a pass with a failure. -/
theorem Pass.ending?_eq_failed {failure : Failure} {change : FileChange}
    (h : p.ending? w = some (.failed failure change)) :
    ∃ job cause, (p.step w).2.phase = .ended (.error (.index cause)) ∧
      p.phase.job? = some job ∧ p.recorded? w job cause = some failure ∧ job.change = change := by
  unfold ending? at h
  split at h
  · split at h
    · cases h
    · cases h
  · rename_i cause ends
    obtain ⟨job, hand, mapped⟩ := Option.bind_eq_some_iff.mp h
    obtain ⟨_, recorded, same⟩ := Option.map_eq_some_iff.mp mapped
    cases same
    rw [ends?, Phase.result?_of_job hand] at ends
    exact ⟨job, cause, Phase.result?_eq_some.mp ends, hand, recorded, rfl⟩
  · cases h

/-- What a pass settled, it reports in its next step. -/
theorem Pass.step_reports (w : CodeIndex) {outcome : PassOutcome}
    (settled : p.phase.role = .settled outcome) :
    ∃ version, (p.step w).2.phase = .ended (.ok ⟨p.path, version, p.generation, outcome⟩) := by
  cases standing : p.phase with
  | confirming version =>
      rw [standing] at settled
      cases settled
      simp only [step, standing]
      exact ⟨_, rfl⟩
  | marking plan =>
      rw [standing] at settled
      cases settled
      simp only [step, standing]
      exact ⟨_, rfl⟩
  | clearing other =>
      rw [standing] at settled
      cases settled
      simp only [step, standing]
      exact ⟨_, rfl⟩
  | _ =>
      rw [standing] at settled
      cases settled

end

/-- The pass does not take what is told of a failure when it gives up its change. -/
def Pass.Leaves (tells : Failure → FileChange → FileEntry → Prop) (w : CodeIndex) (p : Pass) :
    Prop :=
  p.unread w = true → p.isLatest w = true → ∀ failure change e, w.files.get? p.path = some e →
    tells failure change e → tells failure change (Note.abandoned.on e)

theorem Pass.leaves_keeps (p : Pass) (w : CodeIndex) : p.Leaves FileEntry.Keeps w :=
  fun _ _ _ _ e _ ⟨contentHash, kept⟩ => ⟨contentHash, (Note.on_passes rfl e).1.trans kept⟩

theorem Pass.leaves_shows {w : CodeIndex} {p : Pass} (seen : p.hides w = false) :
    p.Leaves FileEntry.Shows w := by
  rintro unread latest failure change e known ⟨⟨contentHash, kept⟩, standing⟩
  have idle : e.status.inProgress = false := by
    simpa [hides, unread, latest, known, kept] using seen
  rw [Note.on, if_neg (Bool.eq_false_iff.mp idle)]
  exact ⟨⟨contentHash, kept⟩, standing⟩

namespace Session

/-- The table tells of the last result of a path, if that was a failure. -/
structure Told (tells : Failure → FileChange → FileEntry → Prop) (path : String)
    (last : Option Ending) (s : Session) : Prop where
  place : ∀ failure change, last = some (.failed failure change) → change.path = path
  entry : ∀ failure change, last = some (.failed failure change) →
    ∃ e, s.index.files.get? path = some e ∧ tells failure change e

section

variable {tells : Failure → FileChange → FileEntry → Prop} {s after : Session} {path : String}
variable {last : Option Ending} {request : Request} {p : Pass} {note : Note} {phase : Phase}

theorem Told.of_not_failed (other : ∀ failure change, last ≠ some (.failed failure change)) :
    Told tells path last s :=
  ⟨fun failure change same => absurd same (other failure change),
    fun failure change same => absurd same (other failure change)⟩

theorem Told.carry (h : Told tells path last s)
    (entry : after.index.files.get? path = s.index.files.get? path) : Told tells path last after :=
  ⟨h.place, fun failure change same => entry.symm ▸ h.entry failure change same⟩

theorem Told.begun (lasting : Lasting tells) (h : Told tells request.path last s) :
    Told tells request.path last (s.begin request) := by
  refine ⟨h.place, fun failure change same => ?_⟩
  obtain ⟨e, known, told⟩ := h.entry failure change same
  refine ⟨_, Keyed.get?_put_self .., ?_⟩
  rw [known]
  exact lasting.begun failure change e _ told

/-- A pass that reports what it settled resolves the failures of its path. -/
theorem Orderly.ending_settled (h : Orderly s) (held : s.Has p.number request p)
    {outcome : PassOutcome} (settled : p.phase.role = .settled outcome) :
    p.ending? s.index = some .resolved := by
  obtain ⟨version, ended⟩ := p.step_reports s.index settled
  refine Pass.ending?_resolved (Phase.result?_eq_none.mpr ?_) ended ?_
  · rw [settled]
    exact fun _ same => Role.noConfusion same
  · rintro rfl
    exact h.settled_holds held settled

/-- A step that ends a pass with a failure notes it. -/
theorem Told.failed (lasting : Lasting tells) (step : Stepping s request p note phase)
    {failure : Failure} {change : FileChange}
    (ending : p.ending? s.index = some (.failed failure change)) :
    Told tells p.path (some (.failed failure change)) (s.advanced request p (p.step s.index)) := by
  obtain ⟨job, cause, ended, hand, recorded, rfl⟩ := Pass.ending?_eq_failed ending
  rw [step.after] at ended
  subst ended
  have marked : cause.failureKind ≠ .none := fun unmarked => by
    rw [Pass.recorded?, unmarked] at recorded
    cases recorded
  generalize standing : Phase.ended (.error (.index cause)) = phase at step
  cases step.noting with
  | idle =>
      rw [← standing] at hand
      cases hand
  | refused _ _ _ unmarked | abandoned _ _ _ unmarked =>
      cases standing
      exact absurd unmarked marked
  | failed noted retry _ _ latest place job' hand' recorded' kept =>
      cases standing
      cases Option.some.inj (hand'.symm.trans hand)
      cases Option.some.inj (recorded'.symm.trans recorded)
      subst kept
      obtain ⟨e, known, -⟩ := FileTable.current?_of_isCurrent latest
      refine ⟨fun _ _ same => ?_, fun _ _ same => ⟨_, step.entry_after known, ?_⟩⟩
      · cases same
        exact place
      · cases same
        exact lasting.noted _ _ _ e
  | goesOn _ _ stands | entered _ _ _ _ stands => exact absurd standing.symm (stands _)
  | superseded | brokeDown | indexed | unnoted | removed => cases standing

/-- A step that does not end a pass for its path leaves what is told of a failure. -/
theorem Told.passing (lasting : Lasting tells) (h : Told tells p.path last s) (orderly : Orderly s)
    (step : Stepping s request p note phase) (passes : p.ending? s.index = .none)
    (leaves : p.Leaves tells s.index) :
    Told tells p.path last (s.advanced request p (p.step s.index)) := by
  refine ⟨h.place, fun failure change same => ?_⟩
  obtain ⟨e, known, told⟩ := h.entry failure change same
  refine ⟨_, step.entry_after known, ?_⟩
  cases step.noting with
  | idle | goesOn | superseded | brokeDown | refused | unnoted => exact told
  | entered stage => exact lasting.entered failure change e stage told
  | abandoned _ _ latest _ unread => exact leaves unread latest failure change e known told
  | failed _ _ _ _ _ _ _ hand recorded =>
      exact nomatch passes.symm.trans (Pass.ending?_failed hand recorded step.after)
  | indexed _ confirms =>
      rcases settled_of_confirms confirms with settled | ⟨counts, settled⟩
      · exact nomatch passes.symm.trans (orderly.ending_settled step.held settled)
      · exact nomatch passes.symm.trans (orderly.ending_settled step.held settled)
  | removed _ clears =>
      obtain ⟨outcome, settled⟩ := settled_of_clears clears
      exact nomatch passes.symm.trans (orderly.ending_settled step.held settled)

/-! ## Whole runs -/

/-- No pass over a path takes from it what is told of its failure. -/
def Leaves (tells : Failure → FileChange → FileEntry → Prop) (path : String) (s : Session)
    (m : Move) : Prop :=
  ∀ p, s.mover m = some p → p.path = path → p.Leaves tells s.index

theorem leaves_keeps (path : String) (s : Session) (m : Move) :
    Leaves FileEntry.Keeps path s m :=
  fun p _ _ => p.leaves_keeps s.index

theorem leaves_shows {m : Move} (seen : s.hides path m = false) :
    Leaves FileEntry.Shows path s m := by
  intro p moved here
  refine Pass.leaves_shows ?_
  simpa [hides, moved, here] using seen

theorem Told.move (lasting : Lasting tells) (h : Told tells path last s) (orderly : Orderly s)
    {m : Move} (leaves : Leaves tells path s m) :
    Told tells path ((s.seen (Pass.over path Pass.ending?) (.move m)).or last) (s.move m) := by
  rcases orderly.answering.seen_cases Pass.ending? m path with
    ⟨same, unseen⟩ | ⟨request, rfl, rfl⟩ | ⟨_, p, _, _, step, rfl, moved, mover, seen⟩
  · rw [unseen]
    exact h.carry same.entry
  · exact h.begun lasting
  · rw [moved, seen]
    cases ended : p.ending? s.index with
    | none => exact h.passing lasting orderly step ended (leaves p mover rfl)
    | some ending =>
        cases ending with
        | resolved => exact .of_not_failed fun _ _ same => (nomatch same)
        | failed failure change => exact .failed lasting step ended

/-- After any run the table tells of the last result of a path. -/
theorem Told.moveAll (lasting : Lasting tells) {moves : List Move} (h : Told tells path last s)
    (orderly : Orderly s) (leaves : Along Session.move (Leaves tells path) s moves) :
    Told tells path ((s.endings path moves).getLast?.or last) (s.moveAll moves) := by
  induction moves generalizing s last with
  | nil => exact h
  | cons m rest ih =>
      have later := ih (h.move lasting orderly leaves.1) (orderly.move m) leaves.2
      have newest (o : Option Ending) : o.toList.getLast? = o := by
        cases o with
        | none | some => rfl
      rw [endings, List.map_cons, log, List.getLast?_append, newest, Option.or_assoc]
      exact later

end

end Session

namespace CodeIndex

open Session (start)

/-- A failure stays until the path is served, removed, or fails anew: what is kept of it is content
    that failed, with the number of its attempts. When all passes over the path have returned, it
    stands as failed, and its content is due from the time of the next attempt on, as long as no
    pass gave up its change while the path stood as worked on. -/
theorem failure_stays {c : IndexConfig} {parts : IndexParts} {now : Instant} {w : CodeIndex}
    (built : build c parts now = .ok w) (earlier moves : List Move) (path : String)
    {failure : Failure} {change : FileChange}
    (last : (((start w).moveAll earlier).endings path moves).getLast? =
      some (.failed failure change)) :
    (∃ e, (((start w).moveAll earlier).moveAll moves).index.files.get? path = some e ∧
      e.Keeps failure change) ∧
    (Along Session.move (fun s m => s.hides path m = false) ((start w).moveAll earlier) moves →
      (((start w).moveAll earlier).moveAll moves).rests path = true →
      (((start w).moveAll earlier).moveAll moves).index.files.status path =
          some (.failed failure) ∧
        ∀ now, change ∈ (((start w).moveAll earlier).moveAll moves).index.files.dueRetries now ↔
          ∃ time, failure.nextRetryAt = some time ∧ time.le now = true) := by
  obtain ⟨-, -, -, -, files, -, -⟩ := build_ok built
  have orderly : ((start w).moveAll earlier).Orderly :=
    (Session.Orderly.start (Reached.built built).numbered).moveAll earlier
  have progressing : (((start w).moveAll earlier).moveAll moves).Progressing path := by
    have progressing := (Session.Progressing.start files path).turnAll
      ((earlier ++ moves).map .move)
    rwa [Session.turnAll_moves, Session.moveAll, List.foldl_append] at progressing
  have unknown (tells : Failure → FileChange → FileEntry → Prop) :
      Session.Told tells path none ((start w).moveAll earlier) :=
    .of_not_failed fun _ _ same => Option.some_ne_none _ same.symm
  constructor
  · have told := (unknown _).moveAll keeps_lasting orderly
      (.of_forall (Session.leaves_keeps path) _ moves)
    rw [last] at told
    exact told.entry failure change rfl
  · intro seen resting
    have told := (unknown _).moveAll shows_lasting orderly
      (seen.imp fun _ _ => Session.leaves_shows)
    rw [last] at told
    have place : change.path = path := told.place failure change rfl
    obtain ⟨e, known, ⟨contentHash, kept⟩, standing⟩ := told.entry failure change rfl
    have failed : e.status = .failed failure := by
      refine standing.resolve_right fun busy => ?_
      rw [progressing.attended.rests resting known] at busy
      cases busy
    refine ⟨by rw [FileTable.status, known, Option.map_some, failed], fun now => ?_⟩
    exact progressing.tidy.kept_due (place ▸ known) failed kept

/-- A pass over content in a language that only a hint tells fails. -/
def failingMoves : List Move :=
  .provider Recovery.offline :: .begin (.index (hinted (some .python))) ::
    List.replicate 9 (.step 0)

/-- The change comes in without its language; then with it, and is overtaken by one without, before
    any stage is entered. -/
def unreadMoves : List Move :=
  .begin (.index (hinted none)) :: List.replicate 3 (.step 1) ++
    .begin (.index (hinted (some .python))) :: .begin (.index (hinted none)) ::
      List.replicate 2 (.step 2) ++ List.replicate 3 (.step 3)

/-- The failure outlasts a superseded pass and two passes that are not read. -/
theorem unreadMoves_failure_stays :
    ∃ failure change,
      ((((start smallIndex).moveAll []).endings "notes" (failingMoves ++ unreadMoves)).getLast? =
        some (.failed failure change)) ∧
      Along Session.move (fun s m => s.hides "notes" m = false) ((start smallIndex).moveAll [])
        (failingMoves ++ unreadMoves) ∧
      (((start smallIndex).moveAll []).moveAll (failingMoves ++ unreadMoves)).rests "notes" = true ∧
      (((start smallIndex).moveAll []).moveAll
        (failingMoves ++ unreadMoves)).index.files.status "notes" = some (.failed failure) ∧
      change ∈ (((start smallIndex).moveAll []).moveAll
        (failingMoves ++ unreadMoves)).index.files.dueRetries ⟨60, 0⟩ := by
  have computed :
      (((start smallIndex).moveAll []).endings "notes"
        (failingMoves ++ unreadMoves)).getLast?.any (·.retriedBy ⟨60, 0⟩) = true ∧
      Along Session.move (fun s m => s.hides "notes" m = false) ((start smallIndex).moveAll [])
        (failingMoves ++ unreadMoves) ∧
      (((start smallIndex).moveAll []).moveAll
        (failingMoves ++ unreadMoves)).rests "notes" = true := by
    decide +kernel
  obtain ⟨ending, seen, resting⟩ := computed
  obtain ⟨⟨⟩ | ⟨failure, change⟩, last, retried⟩ := (Option.any_eq_true _ _).mp ending
  · cases retried
  · obtain ⟨-, visible⟩ := failure_stays build_small [] (failingMoves ++ unreadMoves) "notes" last
    obtain ⟨failed, due⟩ := visible seen resting
    obtain ⟨time, next, before⟩ := (Option.any_eq_true _ _).mp retried
    exact ⟨failure, change, last, seen, resting, failed, (due ⟨60, 0⟩).mpr ⟨time, next, before⟩⟩

/-! ## Failures that are taken from sight -/

/-- The change comes in once more, and is overtaken by one without its language after a stage is
    entered. -/
def hidingMoves : List Move :=
  .begin (.index (hinted (some .python))) :: List.replicate 5 (.step 1) ++
    .begin (.index (hinted none)) :: .step 1 :: List.replicate 3 (.step 2)

/-- The last result is a failure that is to be tried again; but the file stands as unindexed, and
    nothing is due. -/
theorem failure_taken_from_sight :
    (((start smallIndex).endings "notes" (failingMoves ++ hidingMoves)).getLast?.any
      (·.retriedBy ⟨60, 0⟩)) = true ∧
    ((start smallIndex).moveAll (failingMoves ++ hidingMoves)).rests "notes" = true ∧
    ((start smallIndex).moveAll (failingMoves ++ hidingMoves)).index.files.status "notes" =
      some .unindexed ∧
    (((start smallIndex).moveAll (failingMoves ++ hidingMoves)).index.files.dueRetries
      ⟨60, 0⟩).isEmpty = true := by
  decide +kernel

end CodeIndex

end CodeSearch
