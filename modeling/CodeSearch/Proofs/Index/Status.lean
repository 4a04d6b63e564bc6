import CodeSearch.Proofs.Along
import CodeSearch.Proofs.Index.Progress

/-! # Status and index

When no pass over a path is on its way, a path that stands as indexed is held. A path that is held
stands as indexed or failed, as long as no event for it comes in between the last look of a pass at
the table and its note that the commit was made. An event at that moment keeps the commit from
being noted; when it is then abandoned, the path is held and stands as unindexed.
-/

namespace CodeSearch

open Time (Instant)

namespace Session

/-- An event for a path comes in between the last look of a pass at the table and its note. -/
def divides (path : String) (s : Session) : Move → Bool
  | .begin request => request.path == path && s.anyOver path (·.commits)
  | _ => false

end Session

/-! ## Entries that tell the truth -/

/-- The status of an entry does not contradict its flag. -/
structure FileEntry.Truthful (e : FileEntry) : Prop where
  indexed : e.status = .indexed → e.committed = true
  unindexed : e.status = .unindexed → e.committed = false

section

variable {e : FileEntry}

theorem FileEntry.Truthful.default : ({} : FileEntry).Truthful :=
  ⟨nofun, fun _ => rfl⟩

theorem FileEntry.Truthful.of_other (served : e.status ≠ .indexed)
    (unserved : e.status ≠ .unindexed) : e.Truthful :=
  ⟨fun same => absurd same served, fun same => absurd same unserved⟩

theorem Note.truthful (note : Note) (h : e.Truthful) : (note.on e).Truthful := by
  cases note with
  | nothing => exact h
  | failed failure retry => exact .of_other (by simp [Note.on]) (by simp [Note.on])
  | indexed => exact ⟨fun _ => rfl, by simp [Note.on]⟩
  | removed => exact ⟨by simp [Note.on], fun _ => rfl⟩
  | entered stage =>
      cases flag : e.committed with
      | true => exact .of_other (by simp [Note.on, flag]) (by simp [Note.on, flag])
      | false => exact .of_other (by simp [Note.on, flag]) (by simp [Note.on, flag])
  | abandoned =>
      by_cases busy : e.status.inProgress
      · cases flag : e.committed with
        | true => exact ⟨by simp [Note.on, busy, flag], by simp [Note.on, busy, flag]⟩
        | false => exact ⟨by simp [Note.on, busy, flag], by simp [Note.on, busy, flag]⟩
      · simpa only [Note.on, if_neg busy] using h

/-- Whether a note is that a path is served, or that it is not. -/
def Note.flags : Note → Prop
  | .indexed | .removed => True
  | _ => False

theorem Note.on_committed {note : Note} (other : ¬note.flags) :
    (note.on e).committed = e.committed := by
  cases note with
  | indexed | removed => exact absurd trivial other
  | nothing | entered | failed => rfl
  | abandoned =>
      simp only [Note.on]
      split
      · rfl
      · rfl

end

namespace Session

/-! ## What a path that stands as indexed stands for -/

/-- What the table says of a path is true, as far as some pass is not about to change it. -/
structure Truthful (path : String) (s : Session) : Prop where
  entry : ∀ e, s.index.files.get? path = some e → e.Truthful
  cleared : ∀ p, s.Over path p → p.phase.clears = true → s.index.state.unit? path = none
  flagged : ∀ e, s.index.files.get? path = some e → e.committed = true →
    (∃ entry, s.index.state.unit? path = some entry) ∨ ∃ p, s.Over path p ∧ p.phase.clears = true
  attended : s.Attended path

/-- What is held of a path is noted, or a pass is about to note it that no event can keep from
    it. -/
structure Noted (path : String) (s : Session) : Prop where
  noted : ∀ entry, s.index.state.unit? path = some entry →
    (∃ e, s.index.files.get? path = some e ∧ e.committed = true) ∨
      ∃ p plan, s.Over path p ∧ p.phase = .marking plan
  newest : ∀ p, s.Over path p → p.phase.commits = true → p.isLatest s.index = true

section

variable {s : Session} {request : Request} {p q : Pass} {note : Note} {phase : Phase}

/-- When a pass is to note that its file is served no more, nothing is held of it. -/
theorem Stepping.cleared_self (step : Stepping s request p note phase)
    (cleared : p.phase.clears = true → s.index.state.unit? p.path = none)
    (clears : phase.clears = true) : (p.step s.index).1.state.unit? p.path = none := by
  obtain ⟨-, after, taken, noting, -⟩ := step
  cases noting with
  | idle =>
      obtain ⟨outcome, settled⟩ := settled_of_clears clears
      refine (taken.beside.unit.resolve_right fun effect => ?_).trans (cleared clears)
      rw [(Phase.takesEffect_roles effect).1] at settled
      cases settled
  | goesOn _ _ _ _ removing =>
      have unit := IndexState.unit?_removeUnit s.index.state p.path p.path
      simp only [Pass.step, removing clears, Pass.remove]
      exact unit.trans (if_pos rfl)
  | entered _ _ _ _ _ _ remains =>
      rw [remains.2] at clears
      cases clears
  | superseded | brokeDown | refused | abandoned | failed | indexed | unnoted | removed =>
      cases clears

/-- While a pass is to note that its file is served no more, no other pass touches it. -/
theorem Orderly.cleared_other (h : Orderly s) (step : Stepping s request p note phase) {m : Nat}
    {r : Request} (heldQ : s.Has m r q) (different : m ≠ p.number) (place : q.path = p.path)
    (clears : q.phase.clears = true) :
    (p.step s.index).1.state.unit? p.path = s.index.state.unit? p.path := by
  refine step.unit.resolve_right fun ⟨working, _⟩ => different ?_
  exact h.active_unique heldQ step.held place (.inr (settled_of_clears clears)) (.inl working)

theorem Truthful.stepped (t : Truthful p.path s) (h : Orderly s)
    (step : Stepping s request p note phase) :
    Truthful p.path (s.advanced request p (p.step s.index)) := by
  have orderly : Orderly (s.advanced request p (p.step s.index)) := h.advanced step.held step.taken
  have here : s.Over p.path p := ⟨p.number, request, step.held, rfl⟩
  have self := over_self request step.beside
  constructor
  case entry =>
    intro e' known
    obtain ⟨e, before, rfl⟩ := step.entry_before known
    exact note.truthful (t.entry e before)
  case cleared =>
    intro q ofPath clears
    rcases over_advanced ofPath step.beside with ⟨rfl, -⟩ | ⟨m, r, different, heldQ, place⟩
    · exact step.cleared_self (t.cleared p here) (step.after ▸ clears)
    · exact (h.cleared_other step heldQ different place clears).trans
        (t.cleared q ⟨m, r, heldQ, place⟩ clears)
  case flagged =>
    intro e' known flag
    obtain ⟨e, before, rfl⟩ := step.entry_before known
    by_cases flags : note.flags
    · cases step.noting with
      | indexed ack confirms =>
          obtain ⟨entry, unitBefore⟩ := h.confirms_held here confirms
          rcases step.unit with same | ⟨working, -⟩
          · exact .inl ⟨entry, same.trans unitBefore⟩
          · rcases settled_of_confirms confirms with settled | ⟨counts, settled⟩
            · cases working.symm.trans settled
            · cases working.symm.trans settled
      | removed ack clears => cases flag
      | _ => cases flags
    · -- the flag is as before, and what is held can only be replaced, or about to be noted as gone
      rw [Note.on_committed flags] at flag
      rcases t.flagged e before flag with ⟨entry, unitBefore⟩ | ⟨q, ofPath, clears⟩
      · rcases step.unit with same | ⟨-, ⟨plan, marking⟩ | clears⟩
        · exact .inl ⟨entry, same.trans unitBefore⟩
        · refine .inl (orderly.confirms_held self ?_)
          rw [step.after, marking]
          rfl
        · exact .inr ⟨_, self, step.after.symm ▸ clears⟩
      · rcases over_remains step.held ofPath with rfl | remains
        · rcases step.noting.of_clears clears with rfl | ⟨-, stays⟩
          · exact absurd trivial flags
          · exact .inr ⟨_, self, step.after.trans stays ▸ clears⟩
        · exact .inr ⟨q, remains, clears⟩
  case attended => exact t.attended.stepped step

theorem Noted.stepped (n : Noted p.path s) (t : Truthful p.path s)
    (step : Stepping s request p note phase) :
    Noted p.path (s.advanced request p (p.step s.index)) := by
  have here : s.Over p.path p := ⟨p.number, request, step.held, rfl⟩
  have self := over_self request step.beside
  constructor
  case noted =>
    intro entry held
    have kept : ¬phase.clears = true := fun clears => by
      have gone := step.cleared_self (t.cleared p here) clears
      exact nomatch gone.symm.trans held
    rcases step.unit with same | ⟨-, ⟨plan, marking⟩ | clears⟩
    · have before : s.index.state.unit? p.path = some entry := same.symm.trans held
      rcases n.noted entry before with ⟨e, known, flag⟩ | ⟨q, plan, ofPath, marking⟩
      · refine .inl ⟨note.on e, step.entry_after known, ?_⟩
        by_cases flags : note.flags
        · cases step.noting with
          | indexed => rfl
          | removed ack clears => exact nomatch (t.cleared p here clears).symm.trans before
          | _ => cases flags
        · rw [Note.on_committed flags, flag]
      · rcases over_remains step.held ofPath with rfl | remains
        · -- no event came in since the last look, so the note is not too late
          have latest := n.newest q ofPath (by rw [marking]; rfl)
          rcases step.noting.of_confirms (by rw [marking]; rfl) with rfl | ⟨-, stays | late⟩
          · obtain ⟨e, known, -⟩ := FileTable.current?_of_isCurrent latest
            exact .inl ⟨_, step.entry_after known, rfl⟩
          · exact .inr ⟨_, plan, self, step.after.trans (stays.trans marking)⟩
          · exact nomatch latest.symm.trans late
        · exact .inr ⟨q, plan, remains, marking⟩
    · exact .inr ⟨_, plan, self, step.after.trans marking⟩
    · exact absurd clears kept
  case newest =>
    intro q ofPath commits
    rcases over_advanced ofPath step.beside with ⟨rfl, -⟩ | ⟨m, r, different, heldQ, place⟩
    · refine step.latest_self ?_
      rw [step.after] at commits
      cases step.noting with
      | idle => exact n.newest p here commits
      | goesOn _ _ _ looked =>
          rcases looked commits with before | latest
          · exact n.newest p here before
          · exact latest
      | entered _ _ _ _ _ uncommitted => exact nomatch uncommitted.symm.trans commits
      | superseded | brokeDown | refused | abandoned | failed | indexed | unnoted | removed =>
          cases commits
    · exact step.latest (n.newest q ⟨m, r, heldQ, place⟩ commits)

end

/-! ## Moves -/

section

variable {s after : Session} {path : String}

theorem Truthful.carry (t : Truthful path s) (same : SameOver path s after) :
    Truthful path after := by
  constructor
  case entry => exact fun e known => t.entry e (same.entry.symm.trans known)
  case cleared => exact fun p ofPath clears =>
    same.unit.trans (t.cleared p ((same.passes p).mp ofPath) clears)
  case flagged =>
    intro e known flag
    rcases t.flagged e (same.entry.symm.trans known) flag with ⟨entry, held⟩ | ⟨p, ofPath, clears⟩
    · exact .inl ⟨entry, same.unit.trans held⟩
    · exact .inr ⟨p, (same.passes p).mpr ofPath, clears⟩
  case attended => exact t.attended.carry (fun e known => same.entry.symm.trans known) fun p =>
    (same.passes p).mpr

theorem Noted.carry (n : Noted path s) (same : SameOver path s after) : Noted path after := by
  constructor
  case noted =>
    intro entry held
    have before := same.unit.symm.trans held
    rcases n.noted entry before with ⟨e, known, flag⟩ | ⟨p, plan, ofPath, marking⟩
    · exact .inl ⟨e, same.entry.trans known, flag⟩
    · exact .inr ⟨p, plan, (same.passes p).mpr ofPath, marking⟩
  case newest =>
    intro p ofPath commits
    have before := (same.passes p).mp ofPath
    exact same.latest before (n.newest p before commits)

theorem Truthful.begun {request : Request} (t : Truthful request.path s) (h : Orderly s) :
    Truthful request.path (s.begin request) := by
  constructor
  case entry =>
    intro e' known
    obtain ⟨e, before, status, flag⟩ := begin_entry known
    have truthful : e.Truthful := by
      rcases before with before | rfl
      · exact t.entry e before
      · exact .default
    exact ⟨fun same => flag.trans (truthful.indexed (status.symm.trans same)),
      fun same => flag.trans (truthful.unindexed (status.symm.trans same))⟩
  case cleared =>
    intro p ofPath clears
    rcases over_begin ofPath with ⟨rfl, -⟩ | old
    · cases clears
    · exact t.cleared p old clears
  case flagged =>
    intro e' known flagged
    obtain ⟨e, before | rfl, -, flag⟩ := begin_entry known
    · refine (t.flagged e before (flag.symm.trans flagged)).imp_right ?_
      exact fun ⟨p, ofPath, clears⟩ => ⟨p, h.answering.over_begun request ofPath, clears⟩
    · exact nomatch flag.symm.trans flagged
  case attended => exact .begun s request

theorem Noted.begun {request : Request} (n : Noted request.path s) (h : Orderly s)
    (undivided : s.divides request.path (.begin request) = false) :
    Noted request.path (s.begin request) := by
  have uncommitted {p : Pass} (ofPath : s.Over request.path p) : p.phase.commits = false := by
    have none : s.anyOver request.path Phase.commits = false := by simpa [divides] using undivided
    exact anyOver_false none ofPath
  constructor
  case noted =>
    intro entry held
    rcases n.noted entry held with ⟨e, known, flag⟩ | ⟨p, plan, ofPath, marking⟩
    · refine .inl ⟨_, Keyed.get?_put_self .., ?_⟩
      rw [← flag]
      simp only [known, Option.getD_some]
    · exact .inr ⟨p, plan, h.answering.over_begun request ofPath, marking⟩
  case newest =>
    intro p ofPath commits
    rcases over_begin ofPath with ⟨rfl, -⟩ | old
    · cases commits
    · exact nomatch (uncommitted old).symm.trans commits

theorem Truthful.move (t : Truthful path s) (h : Orderly s) (m : Move) :
    Truthful path (s.move m) := by
  rcases h.answering.move_cases m path with
    ⟨same, -⟩ | ⟨request, rfl, rfl⟩ | ⟨_, _, _, _, step, rfl, moved, -⟩
  · exact t.carry same
  · exact t.begun h
  · exact moved ▸ t.stepped h step

theorem Noted.move (n : Noted path s) (t : Truthful path s) (h : Orderly s) {m : Move}
    (undivided : s.divides path m = false) : Noted path (s.move m) := by
  rcases h.answering.move_cases m path with
    ⟨same, -⟩ | ⟨request, rfl, rfl⟩ | ⟨_, _, _, _, step, rfl, moved, -⟩
  · exact n.carry same
  · exact n.begun h undivided
  · exact moved ▸ n.stepped t step

end

end Session

/-! ## When no pass is on its way -/

namespace Session

variable {s : Session} {path : String}

theorem Truthful.rests (t : Truthful path s) (resting : s.rests path = true) {e : FileEntry}
    (known : s.index.files.get? path = some e) :
    (e.committed = true → ∃ entry, s.index.state.unit? path = some entry) ∧
      e.status.inProgress = false := by
  constructor
  · intro flag
    refine (t.flagged e known flag).resolve_right fun ⟨p, ofPath, clears⟩ => ?_
    have returned := rests_returned resting ofPath
    cases standing : p.phase with
    | clearing outcome =>
        rw [standing] at returned
        cases returned
    | _ =>
        rw [standing] at clears
        cases clears
  · exact t.attended.rests resting known

theorem Noted.rests (n : Noted path s) (resting : s.rests path = true) {entry : UnitEntry}
    (held : s.index.state.unit? path = some entry) :
    ∃ e, s.index.files.get? path = some e ∧ e.committed = true := by
  refine (n.noted entry held).resolve_right fun ⟨p, plan, ofPath, marking⟩ => ?_
  have returned := rests_returned resting ofPath
  rw [marking] at returned
  cases returned

end Session

namespace CodeIndex

theorem build_truthful {c : IndexConfig} {parts : IndexParts} {now : Instant} {w : CodeIndex}
    (built : build c parts now = .ok w) (path : String) :
    (Session.start w).Truthful path ∧ (Session.start w).Noted path := by
  obtain ⟨-, -, state, -, files, -, -⟩ := build_ok built
  have unknown (e : FileEntry) : (Session.start w).index.files.get? path ≠ some e := by
    rw [show (Session.start w).index.files = {} from files]
    exact nofun
  have unheld : (Session.start w).index.state.unit? path = none := by
    rw [show (Session.start w).index.state = _ from state]
    rfl
  have none (p : Pass) : ¬(Session.start w).Over path p := nofun
  constructor
  · exact ⟨fun e known => absurd known (unknown e), fun p ofPath => absurd ofPath (none p),
      fun e known => absurd known (unknown e), fun e known => absurd known (unknown e)⟩
  · exact ⟨fun entry held => (nomatch unheld.symm.trans held),
      fun p ofPath => absurd ofPath (none p)⟩

/-- When all passes over a path have returned, a path that stands as indexed is held; and a path
    that is held stands as indexed or failed, as long as no event for it came in between the last
    look of a pass at the table and its note. -/
theorem status_agrees {c : IndexConfig} {parts : IndexParts} {now : Instant} {w : CodeIndex}
    (built : build c parts now = .ok w) (moves : List Move) (path : String)
    (resting : ((Session.start w).moveAll moves).rests path = true) :
    (((Session.start w).moveAll moves).index.files.status path = some .indexed →
      ∃ entry, ((Session.start w).moveAll moves).index.state.unit? path = some entry) ∧
    (Along Session.move (fun s m => s.divides path m = false) (Session.start w) moves →
      ∀ entry, ((Session.start w).moveAll moves).index.state.unit? path = some entry →
        ((Session.start w).moveAll moves).index.files.status path = some .indexed ∨
          ∃ failure, ((Session.start w).moveAll moves).index.files.status path =
            some (.failed failure)) := by
  have numbered := (Reached.built built).numbered
  obtain ⟨truthful, noted⟩ := build_truthful built path
  have kept : ((Session.start w).moveAll moves).Orderly ∧
      ((Session.start w).moveAll moves).Truthful path :=
    List.foldlRecOn (motive := fun s => Session.Orderly s ∧ Session.Truthful path s) moves _
      ⟨.start numbered, truthful⟩ fun s ⟨orderly, truthful⟩ m _ =>
        ⟨orderly.move m, truthful.move orderly m⟩
  constructor
  · intro indexed
    obtain ⟨e, known, standing⟩ := Option.map_eq_some_iff.mp indexed
    exact (kept.2.rests resting known).1 ((kept.2.entry e known).indexed standing)
  · intro undivided entry held
    have noted : ((Session.start w).moveAll moves).Noted path := by
      refine (undivided.invariant
        (motive := fun s => Session.Orderly s ∧ Session.Truthful path s ∧ Session.Noted path s)
        ⟨.start numbered, truthful, noted⟩ fun s m ⟨orderly, truthful, noted⟩ undivided => ?_).2.2
      exact ⟨orderly.move m, truthful.move orderly m, noted.move truthful orderly undivided⟩
    obtain ⟨e, known, flag⟩ := noted.rests resting held
    have status : ((Session.start w).moveAll moves).index.files.status path = some e.status := by
      rw [FileTable.status, known, Option.map_some]
    have idle := (kept.2.rests resting known).2
    rw [status]
    cases standing : e.status with
    | indexed => exact .inl rfl
    | failed failure => exact .inr ⟨failure, rfl⟩
    | unindexed => cases ((kept.2.entry e known).unindexed standing).symm.trans flag
    | starting stage | reindexing stage =>
        rw [standing] at idle
        cases idle

theorem overtaking_status_agrees :
    ((Session.start smallIndex).moveAll overtaking).rests "a.py" = true ∧
      Along Session.move (fun s m => s.divides "a.py" m = false) (Session.start smallIndex)
        overtaking ∧
      (∃ entry, ((Session.start smallIndex).moveAll overtaking).index.state.unit? "a.py" =
        some entry) ∧
      (((Session.start smallIndex).moveAll overtaking).index.files.status "a.py" = some .indexed ∨
        ∃ failure, ((Session.start smallIndex).moveAll overtaking).index.files.status "a.py" =
          some (.failed failure)) := by
  have computed : ((Session.start smallIndex).moveAll overtaking).rests "a.py" = true ∧
      Along Session.move (fun s m => s.divides "a.py" m = false) (Session.start smallIndex)
        overtaking ∧
      (((Session.start smallIndex).moveAll overtaking).index.state.unit? "a.py").isSome := by
    decide +kernel
  obtain ⟨resting, undivided, held⟩ := computed
  obtain ⟨entry, held⟩ := Option.isSome_iff_exists.mp held
  obtain ⟨-, agrees⟩ := status_agrees build_small overtaking "a.py" resting
  exact ⟨resting, undivided, ⟨entry, held⟩, agrees undivided entry held⟩

/-! ## An event that comes in before the note -/

/-- Content of a file that only a hint tells the language of. -/
def hinted (hint : Option Language) : FileChange :=
  { oneFunction "f()" with path := "notes", hint }

/-- A file is committed; before the commit is noted, a change of it comes in that is not read in
    any language. -/
def divided : List Move :=
  .begin (.index (hinted (some .python))) :: List.replicate 11 (.step 0) ++
    .begin (.index (hinted none)) :: .step 0 :: List.replicate 3 (.step 1)

/-- The file is held, and stands as unindexed. -/
theorem held_and_unindexed :
    ((Session.start smallIndex).moveAll divided).rests "notes" = true ∧
      (((Session.start smallIndex).moveAll divided).index.state.unit? "notes").isSome = true ∧
      ((Session.start smallIndex).moveAll divided).index.files.status "notes" =
        some .unindexed := by
  decide +kernel

end CodeIndex

end CodeSearch
