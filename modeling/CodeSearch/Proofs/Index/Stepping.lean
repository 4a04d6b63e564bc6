import CodeSearch.Proofs.Index.LatestWins
import CodeSearch.Proofs.Index.Noting

/-! # One path of a session

Seen from one path, a move of a session is an event for the path, is a step of a pass over it, or
changes nothing. A step is known by what it does beside other passes, and by what it notes.
-/

namespace CodeSearch

theorem Phase.takesEffect_settles {before after : Phase} (h : before.takesEffect after = true) :
    (∃ plan, after = .marking plan) ∨ after.clears = true := by
  unfold Phase.takesEffect at h
  split at h
  · exact .inl ⟨_, rfl⟩
  · exact .inr rfl
  · cases h

namespace Session

/-- A pass over a path that was begun in a session. -/
def Over (s : Session) (path : String) (p : Pass) : Prop :=
  ∃ number request, s.Has number request p ∧ p.path = path

def anyOver (s : Session) (path : String) (stands : Phase → Bool) : Bool :=
  s.passes.any fun (_, _, p) => p.path == path && stands p.phase

/-- All passes over a path have returned. -/
def rests (s : Session) (path : String) : Bool :=
  !s.anyOver path (!·.returned)

theorem anyOver_false {s : Session} {path : String} {stands : Phase → Bool}
    (h : s.anyOver path stands = false) {p : Pass} (ofPath : s.Over path p) :
    stands p.phase = false := by
  obtain ⟨number, request, held, place⟩ := ofPath
  have none := List.any_eq_false.mp h _ (Keyed.mem_of_get? held)
  simpa [place] using none

theorem rests_returned {s : Session} {path : String} (h : s.rests path = true) {p : Pass}
    (ofPath : s.Over path p) : p.phase.returned = true := by
  have none : s.anyOver path (!·.returned) = false := by simpa [rests] using h
  simpa using anyOver_false none ofPath

/-- The pass that a move lets take a step. -/
def mover (s : Session) : Move → Option Pass
  | .step number => (Keyed.get? s.passes number).map (·.2)
  | _ => none

/-- A step of a pass, with what it notes and where the pass stands after it. -/
structure Stepping (s : Session) (request : Request) (p : Pass) (note : Note) (phase : Phase) :
    Prop where
  held : s.Has p.number request p
  after : (p.step s.index).2.phase = phase
  taken : Taken s.index request p (p.step s.index)
  noting : Noting s.index p note phase
  notes : s.index.files.Notes p.path note (p.step s.index).1.files

section

variable {s : Session} {request : Request} {p q : Pass} {path : String} {note : Note}
  {phase : Phase}

theorem Answering.stepping (h : Answering s) (held : s.Has p.number request p) :
    ∃ note phase, Stepping s request p note phase := by
  have path := h.path _ _ _ held
  have asked := h.asked _ _ _ held
  obtain ⟨note, noting, notes⟩ := p.step_noted s.index path asked
  exact ⟨note, _, held, rfl, p.step_taken s.index path asked, noting, notes⟩

theorem over_advanced (ofPath : (s.advanced request p (p.step s.index)).Over path q)
    (beside : Beside s.index p (p.step s.index)) :
    q = (p.step s.index).2 ∧ p.path = path ∨
      ∃ number r, number ≠ p.number ∧ s.Has number r q ∧ q.path = path := by
  obtain ⟨number, r, held, place⟩ := ofPath
  rcases has_advanced held with ⟨-, -, rfl⟩ | ⟨different, old⟩
  · exact .inl ⟨rfl, beside.path ▸ place⟩
  · exact .inr ⟨number, r, different, old, place⟩

theorem over_remains (held : s.Has p.number request p) (ofPath : s.Over path q) :
    q = p ∨ (s.advanced request p (p.step s.index)).Over path q := by
  obtain ⟨number, r, heldQ, place⟩ := ofPath
  by_cases same : number = p.number
  · subst same
    cases Option.some.inj (held.symm.trans heldQ)
    exact .inl rfl
  · exact .inr ⟨number, r, advanced_has_other heldQ same, place⟩

theorem over_self (request : Request) (beside : Beside s.index p (p.step s.index)) :
    (s.advanced request p (p.step s.index)).Over p.path (p.step s.index).2 :=
  ⟨p.number, request, advanced_has_self .., beside.path⟩

/-! ## What is known of a step -/

theorem Stepping.beside (step : Stepping s request p note phase) :
    Beside s.index p (p.step s.index) :=
  step.taken.beside

/-- A step leaves what is held of its path, unless it was a commit or a removal. -/
theorem Stepping.unit (step : Stepping s request p note phase) :
    (p.step s.index).1.state.unit? p.path = s.index.state.unit? p.path ∨
      p.phase.role = .working ∧ ((∃ plan, phase = .marking plan) ∨ phase.clears = true) := by
  refine step.beside.unit.imp_right fun effect => ?_
  rw [step.after] at effect
  exact ⟨(Phase.takesEffect_roles effect).1, Phase.takesEffect_settles effect⟩

theorem Stepping.latest (step : Stepping s request p note phase)
    (latest : q.isLatest s.index = true) : q.isLatest (p.step s.index).1 = true :=
  Pass.isLatest_iff.mpr ((step.beside.events q.path).trans (Pass.isLatest_iff.mp latest))

theorem Stepping.latest_self (step : Stepping s request p note phase)
    (latest : p.isLatest s.index = true) :
    (p.step s.index).2.isLatest (p.step s.index).1 = true := by
  have still := step.latest latest
  rw [Pass.isLatest_iff] at still ⊢
  rwa [step.beside.path, step.beside.generation]

theorem Stepping.entry_before (step : Stepping s request p note phase) {e' : FileEntry}
    (known : (s.advanced request p (p.step s.index)).index.files.get? p.path = some e') :
    ∃ e, s.index.files.get? p.path = some e ∧ note.on e = e' :=
  Option.map_eq_some_iff.mp (step.notes.self.symm.trans known)

theorem Stepping.entry_after (step : Stepping s request p note phase) {e : FileEntry}
    (known : s.index.files.get? p.path = some e) :
    (s.advanced request p (p.step s.index)).index.files.get? p.path = some (note.on e) :=
  step.notes.self.trans (congrArg (Option.map note.on) known)

/-! ## Passes that have the path -/

/-- Of two passes over a path, one at most has it. -/
theorem Orderly.active_unique (h : Orderly s) {m n : Nat} {r r' : Request}
    (heldP : s.Has m r p) (heldQ : s.Has n r' q) (path : p.path = q.path) (activeP : p.Active)
    (activeQ : q.Active) : m = n := by
  by_contra different
  have less := (h.alone m n r r' p q heldP heldQ different path activeQ).resolve_left activeP.role.1
  have more := (h.alone n m r' r q p heldQ heldP (Ne.symm different) path.symm activeP).resolve_left
    activeQ.role.1
  exact Nat.lt_asymm less more

/-- What a pass that has the path settled is true of the path. -/
theorem Orderly.settled_holds (h : Orderly s) {m : Nat} {r : Request} (held : s.Has m r p)
    {outcome : PassOutcome} (settled : p.phase.role = .settled outcome) :
    outcome.Holds s.index.registered r s.index.state := by
  have active : p.Active := .inr ⟨outcome, settled⟩
  have told := (h.standing m r p held).told
  rw [settled] at told
  obtain ⟨-, holds | ⟨generation, effect, less⟩⟩ := told
  · exact holds
  · obtain ⟨n, r', q, heldQ, place, rfl, past⟩ := h.caused p.path generation effect
    by_cases same : n = m
    · subst same
      cases Option.some.inj (held.symm.trans heldQ)
      exact absurd less (Nat.lt_irrefl _)
    · have earlier := (h.alone n m r' r q p heldQ held same place active).resolve_left past.role.1
      exact absurd less (Nat.lt_asymm earlier)

theorem settled_of_confirms (confirms : p.phase.confirms = true) :
    p.phase.role = .settled .unchanged ∨ ∃ counts, p.phase.role = .settled (.indexed counts) := by
  cases standing : p.phase with
  | confirming version => exact .inl rfl
  | marking plan => exact .inr ⟨plan.counts, rfl⟩
  | _ =>
      rw [standing] at confirms
      cases confirms

theorem settled_of_clears (clears : p.phase.clears = true) :
    ∃ outcome, p.phase.role = .settled outcome := by
  cases standing : p.phase with
  | clearing outcome => exact ⟨outcome, rfl⟩
  | _ =>
      rw [standing] at clears
      cases clears

/-- While a pass is to note that its content is served, it is held. -/
theorem Orderly.confirms_held (h : Orderly s) (ofPath : s.Over path p)
    (confirms : p.phase.confirms = true) : ∃ entry, s.index.state.unit? path = some entry := by
  obtain ⟨number, request, held, rfl⟩ := ofPath
  have serves : ∃ change, request = .index change ∧
      s.index.state.Serves s.index.registered change := by
    rcases settled_of_confirms confirms with settled | ⟨counts, settled⟩
    · exact h.settled_holds held settled
    · exact h.settled_holds held settled
  obtain ⟨change, asked, entry, unit, -⟩ := serves
  rw [(h.standing _ _ _ held).path, asked]
  exact ⟨entry, unit⟩

end

/-! ## Moves -/

/-- Nothing is different over a path. -/
structure SameOver (path : String) (s after : Session) : Prop where
  entry : after.index.files.get? path = s.index.files.get? path
  unit : after.index.state.unit? path = s.index.state.unit? path
  passes : ∀ p, after.Over path p ↔ s.Over path p

section

variable {s after : Session} {path : String}

theorem SameOver.latest (same : SameOver path s after) {p : Pass} (ofPath : s.Over path p)
    (latest : p.isLatest s.index = true) : p.isLatest after.index = true := by
  obtain ⟨_, _, -, rfl⟩ := ofPath
  rw [Pass.isLatest, FileTable.isCurrent] at latest ⊢
  rwa [same.entry]

theorem sameOver_around (path : String) (s : Session) {op : Operation} (aside : op.Aside) :
    SameOver path s (s.around op) :=
  ⟨by rw [s.around_files aside], (around_quiet path s.index aside).unit, fun _ => Iff.rfl⟩

theorem sameOver_step {request : Request} {p : Pass} {note : Note} {phase : Phase}
    (step : Stepping s request p note phase) (elsewhere : path ≠ p.path) :
    SameOver path s (s.advanced request p (p.step s.index)) := by
  refine ⟨step.notes.other elsewhere, step.beside.units path elsewhere,
    fun q => ⟨fun ofPath => ?_, ?_⟩⟩
  · rcases over_advanced ofPath step.beside with ⟨-, here⟩ | ⟨m, r, -, held, place⟩
    · exact absurd here.symm elsewhere
    · exact ⟨m, r, held, place⟩
  · rintro ⟨m, r, held, rfl⟩
    refine (over_remains step.held ⟨m, r, held, rfl⟩).resolve_left ?_
    rintro rfl
    exact elsewhere rfl

theorem over_begin {request : Request} {p : Pass} (ofPath : (s.begin request).Over path p) :
    p = (Pass.start s.index request).2 ∧ request.path = path ∨ s.Over path p := by
  obtain ⟨number, r, held, place⟩ := ofPath
  rcases s.has_begin request held with ⟨-, -, rfl⟩ | ⟨-, old⟩
  · exact .inl ⟨rfl, place⟩
  · exact .inr ⟨number, r, old, place⟩

theorem Answering.over_begun (h : Answering s) (request : Request) {p : Pass}
    (ofPath : s.Over path p) :
    (s.begin request).Over path p := by
  obtain ⟨number, r, held, place⟩ := ofPath
  exact ⟨number, r, h.begin_has request held, place⟩

theorem Answering.sameOver_begin (h : Answering s) {request : Request}
    (elsewhere : path ≠ request.path) :
    SameOver path s (s.begin request) := by
  refine ⟨Keyed.get?_put_of_ne _ _ elsewhere, rfl, fun p => ⟨fun ofPath => ?_, ?_⟩⟩
  · exact (over_begin ofPath).resolve_left fun ⟨_, here⟩ => elsewhere here.symm
  · exact h.over_begun request

/-- An event leaves the status of its path, and the flag. -/
theorem begin_entry {request : Request} {e' : FileEntry}
    (known : (s.begin request).index.files.get? request.path = some e') :
    ∃ e, (s.index.files.get? request.path = some e ∨ e = {}) ∧ e'.status = e.status ∧
      e'.committed = e.committed := by
  cases Option.some.inj ((Keyed.get?_put_self ..).symm.trans known)
  refine ⟨(s.index.files.get? request.path).getD {}, ?_, rfl, rfl⟩
  cases s.index.files.get? request.path with
  | none => exact .inr rfl
  | some e => exact .inl rfl

/-- A move is a step over a path, is an event for it, or changes nothing over it. -/
theorem Answering.move_cases (h : Answering s) (m : Move) (path : String) :
    (SameOver path s (s.move m) ∧ ∀ p, s.mover m = some p → p.path ≠ path) ∨
      (∃ request, m = .begin request ∧ request.path = path) ∨
      ∃ request p note phase, Stepping s request p note phase ∧ p.path = path ∧
        s.move m = s.advanced request p (p.step s.index) ∧ s.mover m = some p := by
  have around (op : Operation) (aside : op.Aside) (same : s.move m = s.around op)
      (still : s.mover m = none) :
      SameOver path s (s.move m) ∧ ∀ p, s.mover m = some p → p.path ≠ path := by
    rw [same, still]
    exact ⟨sameOver_around path s aside, fun _ moved => (nomatch moved)⟩
  cases m with
  | feedback id signal => exact .inl (around (.feedback id signal) trivial rfl rfl)
  | clock now => exact .inl (around (.clock now) trivial rfl rfl)
  | provider embedder => exact .inl (around (.provider embedder) trivial rfl rfl)
  | outage write => exact .inl (around (.outage write) trivial rfl rfl)
  | begin request =>
      by_cases here : path = request.path
      · exact .inr (.inl ⟨request, rfl, here.symm⟩)
      · exact .inl ⟨h.sameOver_begin here, fun _ moved => (nomatch moved)⟩
  | step number =>
      rw [Session.move]
      cases found : Keyed.get? s.passes number with
      | none =>
          have still : s.mover (.step number) = none := by rw [mover, found, Option.map_none]
          rw [Session.step, found, still]
          exact .inl ⟨⟨rfl, rfl, fun _ => Iff.rfl⟩, fun _ moved => (nomatch moved)⟩
      | some entry =>
          obtain ⟨request, p⟩ := entry
          have moved : s.mover (.step number) = some p := by rw [mover, found, Option.map_some]
          obtain ⟨rfl, -⟩ := h.own number request p found
          obtain ⟨note, phase, step⟩ := h.stepping found
          rw [step_eq found, moved]
          by_cases here : path = p.path
          · exact .inr (.inr ⟨request, p, note, phase, step, here.symm, rfl, rfl⟩)
          · refine .inl ⟨sameOver_step step here, fun q same => ?_⟩
            rw [← Option.some.inj same]
            exact Ne.symm here

end

end Session

end CodeSearch
