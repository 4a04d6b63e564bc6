import CodeSearch.Proofs.Index.Due
import CodeSearch.Proofs.Index.Stepping

/-! # Sessions that are swept

A pruning sweeps the symbols, the paths and the locks one after the other, and lets go of the index
in between, so that passes go on between its sweeps. A run of a session with prunings is a list of
turns, of which each is a move or one sweep.
-/

namespace CodeSearch

open Time (Instant)

/-- The parts of a pruning. -/
inductive Sweep where
  | symbols
  | paths
  | locks
  deriving Repr, DecidableEq, Inhabited

namespace CodeIndex

def sweep (w : CodeIndex) : Sweep → CodeIndex
  | .symbols => { w with state := w.state.pruneStale.2 }
  | .paths => { w with files := w.files.prune.2 }
  | .locks => { w with locks := w.locks.prune.2 }

/-- A pruning makes all sweeps. -/
theorem pruneStale_eq_sweeps (w : CodeIndex) :
    w.pruneStale.2 = ((w.sweep .symbols).sweep .paths).sweep .locks := rfl

theorem sweep_registered (w : CodeIndex) (part : Sweep) :
    (w.sweep part).registered = w.registered := by
  cases part with
  | symbols | paths | locks => rfl

theorem sweep_passes (w : CodeIndex) (part : Sweep) : (w.sweep part).passes = w.passes := by
  cases part with
  | symbols | paths | locks => rfl

end CodeIndex

/-- What can happen next in a session that is swept. -/
inductive Turn where
  | move (m : Move)
  | sweep (part : Sweep)
  deriving Inhabited

namespace Session

def turn (s : Session) : Turn → Session
  | .move m => s.move m
  | .sweep part => { s with index := s.index.sweep part }

def turnAll (s : Session) (turns : List Turn) : Session :=
  turns.foldl turn s

theorem turnAll_moves (s : Session) (moves : List Move) :
    s.turnAll (moves.map .move) = s.moveAll moves :=
  List.foldl_map

section

variable {s : Session}

theorem Answering.sweep (h : Answering s) (part : Sweep) : Answering (s.turn (.sweep part)) :=
  h.beside (s.index.sweep_registered part) (s.index.sweep_passes part)

theorem Answering.turn (h : Answering s) (t : Turn) : Answering (s.turn t) := by
  cases t with
  | move m => exact h.move m
  | sweep part => exact h.sweep part

theorem Answering.tidy_move (h : Answering s) (tidy : s.index.files.Tidy) (m : Move) :
    (s.move m).index.files.Tidy := by
  rcases s.begin_or_step_or_around m with ⟨request, rfl⟩ | ⟨number, rfl⟩ | ⟨op, aside, moved⟩
  · exact tidy.begin request.path
  · rw [Session.move]
    rcases h.step_cases number with still | ⟨request, p, rfl, held, taken⟩
    · rw [still]
      exact tidy
    · obtain ⟨note, phase, step⟩ := h.stepping held
      rw [taken]
      refine tidy.notes step.notes fun failure retry same => ?_
      subst same
      cases step.noting with
      | failed _ _ _ _ _ place => exact place
  · rw [moved, s.around_files aside]
    exact tidy

theorem Answering.tidy_moveAll (h : Answering s) (tidy : s.index.files.Tidy) (moves : List Move) :
    (s.moveAll moves).index.files.Tidy :=
  (List.foldlRecOn (motive := fun s => Answering s ∧ s.index.files.Tidy) moves _ ⟨h, tidy⟩
    fun _ ⟨answering, tidy⟩ m _ => ⟨answering.move m, answering.tidy_move tidy m⟩).2

theorem Answering.tidy_turn (h : Answering s) (tidy : s.index.files.Tidy) (t : Turn) :
    (s.turn t).index.files.Tidy := by
  cases t with
  | move m => exact h.tidy_move tidy m
  | sweep part =>
      cases part with
      | symbols | locks => exact tidy
      | paths => exact tidy.prune

/-! ## Passes in line -/

/-- Every pass keeps what it has of the locks, until it ends. -/
structure Lined (s : Session) : Prop extends Answering s where
  numbered : s.index.locks.Numbered
  lined : ∀ number request p, s.Has number request p → p.Lined s.index

theorem Lined.start {w : CodeIndex} (numbered : w.locks.Numbered) : Lined (start w) :=
  ⟨.start w, numbered, fun _ _ _ held => (nomatch held)⟩

theorem Lined.beside (h : Lined s) {after : CodeIndex}
    (registered : after.registered = s.index.registered) (passes : after.passes = s.index.passes)
    (numbered : after.locks.Numbered)
    (keeps : ∀ pass, PathLocks.Keeps pass s.index.locks after.locks) :
    Lined { s with index := after } :=
  ⟨h.toAnswering.beside registered passes, numbered,
    fun number request p held => (h.lined number request p held).carry (keeps p.number)⟩

theorem Lined.begin (h : Lined s) (request : Request) : Lined (s.begin request) := by
  refine ⟨h.toAnswering.begin request, h.numbered, fun number r p held => ?_⟩
  rcases s.has_begin request held with ⟨-, -, rfl⟩ | ⟨-, old⟩
  · exact ⟨nofun, fun active => absurd rfl active.role.1⟩
  · exact (h.lined number r p old).carry .refl

theorem Lined.advanced (h : Lined s) {request : Request} {p : Pass} {taken : CodeIndex × Pass}
    (held : s.Has p.number request p) (t : Taken s.index request p taken) :
    Lined (s.advanced request p taken) := by
  have beside := t.beside
  refine ⟨h.toAnswering.advanced held t, beside.numbered h.numbered, fun number r q found => ?_⟩
  rcases has_advanced found with ⟨-, -, rfl⟩ | ⟨different, old⟩
  · exact (h.lined _ _ _ held).step t
  · have own : q.number = number := (h.own number r q old).1
    exact (h.lined number r q old).carry (beside.others h.numbered q.number (own ▸ different))

theorem Lined.move (h : Lined s) (m : Move) : Lined (s.move m) := by
  rcases s.begin_or_step_or_around m with ⟨request, rfl⟩ | ⟨number, rfl⟩ | ⟨op, aside, moved⟩
  · exact h.begin request
  · rw [Session.move]
    rcases h.step_cases number with still | ⟨request, p, rfl, held, taken⟩
    · rw [still]
      exact h
    · rw [taken]
      exact h.advanced held (p.step_taken s.index (h.path _ _ _ held) (h.asked _ _ _ held))
  · have quiet := around_quiet "" s.index aside
    rw [moved]
    exact h.beside quiet.registered quiet.passes (quiet.locks.symm ▸ h.numbered) fun _ =>
      quiet.locks.symm ▸ .refl

theorem Lined.sweep (h : Lined s) (part : Sweep) : Lined (s.turn (.sweep part)) := by
  have registered := s.index.sweep_registered part
  have passes := s.index.sweep_passes part
  cases part with
  | symbols | paths => exact h.beside registered passes h.numbered fun _ => .refl
  | locks =>
      exact h.beside registered passes (PathLocks.prune_numbered h.numbered) fun _ => .prune

/-- While a pass that goes on holds the lock of its path, no other pass over the path is active. -/
theorem Lined.alone (h : Lined s) {m n : Nat} {r r' : Request} {p q : Pass} (heldP : s.Has m r p)
    (heldQ : s.Has n r' q) (goesOn : ∀ result, p.phase.role ≠ .ended result)
    (holds : p.holdsLock s.index = true) (path : p.path = q.path) (active : q.Active) : m = n := by
  obtain ⟨rfl, -⟩ := h.own m r p heldP
  obtain ⟨rfl, -⟩ := h.own n r' q heldQ
  exact (h.lined _ _ _ heldP).unique (h.lined _ _ _ heldQ) goesOn holds active path

end

end Session

/-! ## What is seen of a run -/

/-- How a pass has ended, if it has. -/
def Phase.result? : Phase → Option (Except PassError Ack)
  | .ended result => some result
  | _ => none

/-- How a pass ends, if it does so in its next step. -/
def Pass.ends? (w : CodeIndex) (p : Pass) : Option (Except PassError Ack) :=
  match p.phase.result? with
  | some _ => none
  | none => (p.step w).2.phase.result?

/-- What is seen of a pass, if it is over a path. -/
def Pass.over {α : Type} (path : String) (f : CodeIndex → Pass → Option α) (w : CodeIndex)
    (p : Pass) : Option α :=
  if p.path = path then f w p else none

theorem Phase.result?_eq_some {phase : Phase} {result : Except PassError Ack} :
    phase.result? = some result ↔ phase = .ended result := by
  cases phase with
  | ended other => exact ⟨fun same => congrArg Phase.ended (Option.some.inj same),
      fun same => congrArg some (Phase.ended.inj same)⟩
  | _ => exact ⟨nofun, fun same => Phase.noConfusion same⟩

theorem Phase.result?_eq_none {phase : Phase} :
    phase.result? = none ↔ ∀ result, phase.role ≠ .ended result := by
  cases phase with
  | ended result => exact ⟨nofun, fun other => absurd rfl (other result)⟩
  | _ => exact ⟨fun _ _ same => Role.noConfusion same, fun _ => rfl⟩

namespace Session

section

variable {s : Session} {α : Type}

/-- What is seen of a turn, when something is seen of the pass that takes a step. -/
def seen (f : CodeIndex → Pass → Option α) (s : Session) : Turn → Option α
  | .move m => (s.mover m).bind (f s.index)
  | .sweep _ => none

/-- A move is a step over a path, is an event for it, or changes nothing over it, and what is seen
    over the path is seen of the step. -/
theorem Answering.seen_cases (h : Answering s) (f : CodeIndex → Pass → Option α) (m : Move)
    (path : String) :
    (SameOver path s (s.move m) ∧ s.seen (Pass.over path f) (.move m) = none) ∨
      (∃ request, m = .begin request ∧ request.path = path) ∨
      ∃ request p note phase, Stepping s request p note phase ∧ p.path = path ∧
        s.move m = s.advanced request p (p.step s.index) ∧ s.mover m = some p ∧
          s.seen (Pass.over path f) (.move m) = f s.index p := by
  rcases h.move_cases m path with
    ⟨same, other⟩ | begun | ⟨request, p, note, phase, step, here, moved, mover⟩
  · refine .inl ⟨same, ?_⟩
    rw [seen]
    cases mover : s.mover m with
    | none => rfl
    | some p => exact if_neg (other p mover)
  · exact .inr (.inl begun)
  · refine .inr (.inr ⟨request, p, note, phase, step, here, moved, mover, ?_⟩)
    rw [seen, mover]
    exact if_pos here

/-- What is seen of each turn of a run. -/
def log (f : CodeIndex → Pass → Option α) (s : Session) : List Turn → List α
  | [] => []
  | t :: rest => (s.seen f t).toList ++ log f (s.turn t) rest

theorem log_append (f : CodeIndex → Pass → Option α) (s : Session)
    (earlier later : List Turn) :
    s.log f (earlier ++ later) = s.log f earlier ++ (s.turnAll earlier).log f later := by
  induction earlier generalizing s with
  | nil => rfl
  | cons t rest ih =>
      rw [List.cons_append, log, log, ih, List.append_assoc]
      rfl

end

end Session

end CodeSearch
