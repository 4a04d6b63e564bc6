import CodeSearch.Proofs.Along
import CodeSearch.Proofs.Index.LatestWins
import CodeSearch.Proofs.Index.Mirror

/-! # Passes that do not commit

What the index holds is changed by one step of a pass at most, its commit or its removal, and a pass
that took this step reports so in the end. A commit that cannot write all its records puts back what
it has touched. So whatever else a pass comes to, every step of it leaves the index reading as
before, also when other passes go on between its steps.
-/

namespace CodeSearch

open Time (Instant)

/-! ## Reads -/

/-- Whatever is read of an index, it is the same as before. -/
structure IndexState.SameReads (s after : IndexState) : Prop where
  units : after.units = s.units
  symbols : after.symbols = s.symbols
  byName : after.byName = s.byName
  vectors : ∀ id, after.vectors.get? id = s.vectors.get? id
  feedback : after.feedback = s.feedback
  recentPaths : after.recentPaths = s.recentPaths
  recentSymbols : after.recentSymbols = s.recentSymbols

namespace IndexState

variable {s : IndexState} {u : UnitUpdate}

theorem SameReads.refl (s : IndexState) : s.SameReads s :=
  ⟨rfl, rfl, rfl, fun _ => rfl, rfl, rfl, rfl⟩

theorem SameReads.trans {a b c : IndexState} (first : a.SameReads b) (second : b.SameReads c) :
    a.SameReads c :=
  ⟨second.units.trans first.units, second.symbols.trans first.symbols,
    second.byName.trans first.byName, fun id => (second.vectors id).trans (first.vectors id),
    second.feedback.trans first.feedback, second.recentPaths.trans first.recentPaths,
    second.recentSymbols.trans first.recentSymbols⟩

theorem SameReads.withVectors {vectors : VectorIndex}
    (get : ∀ id, vectors.get? id = s.vectors.get? id) : s.SameReads { s with vectors } :=
  ⟨rfl, rfl, rfl, get, rfl, rfl, rfl⟩

/-! ## Commits that are refused -/

/-- When a write of a commit is refused, none is refused that puts a record back. -/
def restorable (s : IndexState) (u : UnitUpdate) : Bool :=
  match u.upserts.forM fun r => r.vector.validate s.vectors.store.dimension with
  | .error _ => true
  | .ok _ =>
    match (s.vectors.deleteAll u.deletes).2.upsertAll u.upserts with
    | (.ok _, _) => true
    | (.error _, vectors) =>
      vectors.restores (s.vectors.snapshot (u.deletes ++ u.upserts.map (·.id)))

/-- A store that refuses one of the coming writes at most takes back what is put back. -/
theorem restorable_of_steady (sound : s.vectors.Sound) (steady : s.vectors.store.Steady)
    (u : UnitUpdate) : s.restorable u = true := by
  unfold restorable
  split
  · rfl
  · rename_i valid
    have dimension := s.vectors.dimension_dropAll u.deletes
    rw [s.vectors.deleteAll_eq]
    rcases VectorIndex.upsertAll_cases _ (dimension.symm ▸ forM_ok valid) with
      ⟨after, ok, -⟩ | ⟨cause, after, error, broken⟩
    · rw [ok]
    · rw [error]
      exact (VectorIndex.restores_snapshot sound _
        (broken.calm (VectorIndex.steady_dropAll steady u.deletes))
        (broken.dimension.trans dimension)).1

/-- After a commit that is refused, at whatever write, the index reads as before. -/
theorem commit_refused (own : s.vectors.store.OwnIds) (restorable : s.restorable u = true)
    {cause : VectorError} (refused : (s.commit u).1 = .error cause) :
    s.SameReads (s.commit u).2 := by
  have dropped : (s.vectors.deleteAll u.deletes).2 = s.vectors.dropAll u.deletes :=
    s.vectors.deleteAll_eq u.deletes
  have known := commit_cases s u
  generalize s.commit u = result at known refused ⊢
  cases known with
  | invalid cause => exact .refl s
  | replaced vectors valid written => cases refused
  | refused cause vectors valid written =>
      simp only [IndexState.restorable, valid, written] at restorable
      rw [dropped] at written
      have each := (s.vectors.dimension_dropAll u.deletes).symm ▸ forM_ok valid
      rcases VectorIndex.upsertAll_cases _ each with ⟨after, ok, -⟩ | ⟨cause, after, error, broken⟩
      · rw [written] at ok
        cases ok
      · rw [written] at error
        cases error
        refine .withVectors fun id => ?_
        -- an id is in the snapshot, or no write has touched it
        rw [VectorIndex.get?_restore own restorable]
        split
        · rfl
        · rename_i untouched
          rw [List.mem_append, not_or] at untouched
          rw [broken.get id untouched.2, VectorIndex.get?_dropAll, if_neg untouched.1]

end IndexState

/-! ## What a step changes -/

/-- Whether what is held was changed. -/
def PassOutcome.commits : PassOutcome → Bool
  | .indexed _ | .removed _ => true
  | .unchanged | .superseded | .notIndexed => false

/-- Whether a pass reports that it changed what is held. -/
def committed : Except PassError Ack → Bool
  | .ok ack => ack.outcome.commits
  | .error _ => false

/-- Whether the pass changed what is held, as it has reported or is to report. -/
def Phase.committed : Phase → Bool
  | .marking _ => true
  | .clearing outcome => outcome.commits
  | .ended result => CodeSearch.committed result
  | _ => false

namespace Pass

/-- Whether a commit that the pass is about to make can be put back. -/
def restorable (w : CodeIndex) (p : Pass) : Bool :=
  match p.phase with
  | .committing plan records => w.state.restorable (plan.update records)
  | _ => true

section

variable (w : CodeIndex) (p : Pass)

theorem fail_state (job : Job) (cause : IndexError) : (p.fail w job cause).1.state = w.state := by
  unfold fail
  split
  · rfl
  · split
    · rfl
    · rfl
    · rfl

theorem enter_state (stage : Stage) (phase : Phase) :
    (p.enter w stage phase).1.state = w.state := by
  unfold enter
  split
  · rfl
  · rfl

theorem identify_state (change : FileChange) : (p.identify w change).1.state = w.state := by
  unfold identify
  split
  · rfl
  · simp only
    split
    · split
      · rfl
      · rfl
    · rfl

/-- Only a commit or a removal changes what is held. -/
theorem step_state :
    (p.step w).1.state = w.state ∨
      (∃ plan records, p.phase = .committing plan records ∧
        (p.step w).1.state = (w.state.commit (plan.update records)).2) ∨
      p.phase = .removing ∧ (p.step w).1.state = (w.state.removeUnit p.path).2 := by
  cases standing : p.phase with
  | begun | confirming | beforeParsing | marking | clearing =>
      refine .inl ?_
      simp only [step, standing]
      rfl
  | ended => exact .inl (by simp only [step, standing])
  | waiting request =>
      refine .inl ?_
      simp only [step, standing]
      split
      · rfl
      · split
        · rfl
        · split
          · rfl
          · rfl
  | admitted change =>
      simp only [step, standing]
      exact .inl (p.identify_state w change)
  | parsing job =>
      refine .inl ?_
      simp only [step, standing]
      split
      · rw [fail_state]
      · rfl
  | extracting job parsed =>
      refine .inl ?_
      simp only [step, standing]
      split
      · rw [fail_state]
      · rfl
  | beforeExtracting job parsed =>
      simp only [step, standing]
      exact .inl (p.enter_state w _ _)
  | beforeEmbedding plan =>
      simp only [step, standing]
      exact .inl (p.enter_state w _ _)
  | embedding plan kept =>
      refine .inl ?_
      simp only [step, standing, embed]
      split
      · rw [fail_state]
      · rfl
  | beforeCommit plan records =>
      refine .inl ?_
      simp only [step, standing]
      split
      · rfl
      · rfl
  | committing plan records =>
      refine .inr (.inl ⟨plan, records, rfl, ?_⟩)
      simp only [step, standing]
      split
      · rename_i refused
        rw [fail_state, refused]
      · rename_i ok
        rw [ok]
        rfl
  | removing =>
      refine .inr (.inr ⟨rfl, ?_⟩)
      simp only [step, standing, remove]
      rfl

/-- A step leaves the index reading as before, or the pass is to report that it changed it. -/
theorem step_reads (own : w.state.vectors.store.OwnIds) (restorable : p.restorable w = true) :
    w.state.SameReads (p.step w).1.state ∨ (p.step w).2.phase.committed = true := by
  rcases p.step_state w with same | ⟨plan, records, standing, state⟩ | ⟨standing, state⟩
  · rw [same]
    exact .inl (.refl _)
  · rw [Pass.restorable, standing] at restorable
    cases result : w.state.commit (plan.update records) with
    | mk outcome after =>
        cases outcome with
        | error cause =>
            rw [state]
            exact .inl (IndexState.commit_refused own restorable (by rw [result]))
        | ok counts =>
            simp only [step, standing, result]
            exact .inr rfl
  · cases held : w.state.unit? p.path with
    | none =>
        rw [state, IndexState.removeUnit_absent held]
        exact .inl (.refl _)
    | some entry =>
        simp only [step, standing, remove, IndexState.removeUnit_held held]
        exact .inr rfl

/-- A pass that changed what is held reports so in the end. -/
theorem step_committed (changed : p.phase.committed = true) :
    (p.step w).2.phase.committed = true := by
  cases standing : p.phase with
  | marking plan =>
      simp only [step, standing]
      rfl
  | clearing outcome =>
      rw [standing] at changed
      simp only [step, standing]
      exact changed
  | ended result =>
      simp only [step, standing]
      rw [← standing]
      exact changed
  | _ =>
      rw [standing] at changed
      cases changed

theorem step_lasting {P : VectorStore → Prop} (lasting : VectorIndex.Lasting P)
    (h : P w.state.vectors.store) : P (p.step w).1.state.vectors.store := by
  rcases p.step_state w with same | ⟨plan, records, -, state⟩ | ⟨-, state⟩
  · rw [same]
    exact h
  · rw [state]
    exact lasting.commit h _
  · rw [state]
    exact IndexState.removeUnit_lasting lasting h _

end

end Pass

/-! ## Passes in a session -/

namespace Session

/-- Whether a commit that a pass is about to make can be put back. -/
def restorable (number : Nat) (s : Session) : Move → Bool
  | .step n => n != number || (Keyed.get? s.passes n).all fun (_, p) => p.restorable s.index
  | _ => true

variable {s : Session} {number : Nat} {request : Request} {p : Pass}

section

variable {P : VectorStore → Prop} (lasting : VectorIndex.Lasting P)
include lasting

theorem lasting_around (h : P s.index.state.vectors.store) {op : Operation} (aside : op.Aside) :
    P (s.around op).index.state.vectors.store := by
  cases op with
  | index | remove | prune => cases aside
  | clock | provider => exact h
  | outage write => exact lasting.failWrites _ [write] h
  | feedback id signal =>
      obtain ⟨feedback, after⟩ := s.index.perform_feedback id signal
      rw [Session.around, after]
      exact h

theorem lasting_move (h : P s.index.state.vectors.store) (m : Move) :
    P (s.move m).index.state.vectors.store := by
  rcases s.begin_or_step_or_around m with ⟨request, rfl⟩ | ⟨n, rfl⟩ | ⟨op, aside, moved⟩
  · exact h
  · simp only [Session.move, Session.step]
    split
    · rename_i request p held
      exact p.step_lasting s.index lasting h
    · exact h
  · rw [moved]
    exact lasting_around lasting h aside

theorem lasting_moveAll (h : P s.index.state.vectors.store) (moves : List Move) :
    P (s.moveAll moves).index.state.vectors.store :=
  List.foldlRecOn (motive := fun s : Session => P s.index.state.vectors.store) moves _ h
    fun _ kept m _ => lasting_move lasting kept m

end

theorem Orderly.committed_move (h : Orderly s) (held : s.Has number request p)
    (changed : p.phase.committed = true) (m : Move) :
    ∃ p', (s.move m).Has number request p' ∧ p'.phase.committed = true := by
  rcases s.begin_or_step_or_around m with ⟨other, rfl⟩ | ⟨n, rfl⟩ | ⟨op, aside, moved⟩
  · exact ⟨p, h.answering.begin_has other held, changed⟩
  · rw [Session.move]
    rcases h.answering.step_cases n with still | ⟨asked, q, rfl, found, taken⟩
    · rw [still]
      exact ⟨p, held, changed⟩
    · rw [taken]
      by_cases own : q.number = number
      · subst own
        cases Option.some.inj (held.symm.trans found)
        exact ⟨_, advanced_has_self .., p.step_committed s.index changed⟩
      · exact ⟨p, advanced_has_other held (Ne.symm own), changed⟩
  · rw [moved]
    exact ⟨p, held, changed⟩

theorem Orderly.committed_moveAll (h : Orderly s) (held : s.Has number request p)
    (changed : p.phase.committed = true) (moves : List Move) :
    ∃ p', (s.moveAll moves).Has number request p' ∧ p'.phase.committed = true :=
  (List.foldlRecOn (motive := fun t => Orderly t ∧ ∃ p', t.Has number request p' ∧
    p'.phase.committed = true) moves _ ⟨h, p, held, changed⟩
    fun _ ⟨orderly, _, held, changed⟩ m _ =>
      ⟨orderly.move m, orderly.committed_move held changed m⟩).2

/-- Every step of a pass that did not change what is held leaves the index reading as before. -/
theorem Orderly.uncommitted_along (h : Orderly s) (own : s.index.state.vectors.store.OwnIds)
    {moves : List Move}
    (restorable : Along Session.move (fun s m => s.restorable number m = true) s moves)
    (held : (s.moveAll moves).Has number request p) (uncommitted : p.phase.committed = false) :
    Along Session.move (fun s m => m = .step number →
      s.index.state.SameReads (s.move m).index.state) s moves := by
  induction moves generalizing s with
  | nil => trivial
  | cons m rest ih =>
      refine ⟨?_, ih (h.move m) (lasting_move VectorIndex.ownIds_lasting own m) restorable.2 held⟩
      rintro rfl
      rw [Session.move]
      rcases h.answering.step_cases number with still | ⟨asked, q, rfl, found, taken⟩
      · rw [still]
        exact .refl _
      · have back : q.restorable s.index = true := by
          simpa [Session.restorable, show Keyed.get? s.passes q.number = _ from found]
            using restorable.1
        rw [taken]
        refine (q.step_reads s.index own back).resolve_right fun changed => ?_
        -- had the step changed something, the pass would report so in the end
        have after : (s.step q.number).Has q.number asked (q.step s.index).2 :=
          taken ▸ advanced_has_self ..
        obtain ⟨last, heldLast, changedLast⟩ :=
          (h.step q.number).committed_moveAll after changed rest
        cases Option.some.inj (held.symm.trans heldLast)
        rw [uncommitted] at changedLast
        cases changedLast

end Session

/-! ## A pass alone -/

/-- Greatest number of steps that are left. -/
def Phase.left : Phase → Nat
  | .begun _ => 12
  | .waiting _ => 11
  | .admitted _ => 10
  | .beforeParsing _ => 9
  | .parsing _ => 8
  | .beforeExtracting _ _ => 7
  | .extracting _ _ => 6
  | .beforeEmbedding _ => 5
  | .embedding _ _ => 4
  | .beforeCommit _ _ => 3
  | .committing _ _ | .removing => 2
  | .marking _ | .confirming _ | .clearing _ => 1
  | .ended _ => 0

namespace Pass

section

variable (w : CodeIndex) (p : Pass)

theorem fail_left (job : Job) (cause : IndexError) : (p.fail w job cause).2.phase.left = 0 := by
  unfold fail
  split
  · rfl
  · split
    · rfl
    · rfl
    · rfl

theorem enter_left (stage : Stage) (phase : Phase) :
    (p.enter w stage phase).2.phase.left ≤ phase.left := by
  unfold enter
  split
  · exact Nat.le_refl _
  · exact Nat.zero_le _

theorem identify_left (change : FileChange) : (p.identify w change).2.phase.left ≤ 9 := by
  unfold identify
  split
  · exact Nat.zero_le _
  · simp only
    split
    · split
      · exact (by decide : 1 ≤ 9)
      · exact Nat.le_refl _
    · exact Nat.le_refl _

/-- A pass comes nearer to its end with every step that it takes. -/
theorem step_nearer (goesOn : ∀ result, p.phase ≠ .ended result)
    (has : ∀ request, p.phase = .waiting request → p.holdsLock w = true) :
    (p.step w).2.phase.left < p.phase.left := by
  cases standing : p.phase with
  | begun request =>
      simp only [step, standing]
      exact (by decide : 11 < 12)
  | waiting request =>
      simp only [step, standing, has request standing, Bool.not_true, Bool.false_eq_true, if_false]
      split
      · exact (by decide : 0 < 11)
      · split
        · exact (by decide : 10 < 11)
        · exact (by decide : 2 < 11)
  | admitted change =>
      simp only [step, standing]
      exact Nat.lt_succ_of_le (p.identify_left w change)
  | confirming | marking | clearing =>
      simp only [step, standing]
      exact (by decide : 0 < 1)
  | beforeParsing job =>
      simp only [step, standing]
      exact (by decide : 8 < 9)
  | parsing job =>
      simp only [step, standing]
      split
      · exact (p.fail_left _ _ _).trans_lt (Nat.succ_pos _)
      · exact (by decide : 7 < 8)
  | beforeExtracting job parsed =>
      simp only [step, standing]
      exact Nat.lt_succ_of_le (p.enter_left w _ _)
  | extracting job parsed =>
      simp only [step, standing]
      split
      · exact (p.fail_left _ _ _).trans_lt (Nat.succ_pos _)
      · exact (by decide : 5 < 6)
  | beforeEmbedding plan =>
      refine Nat.lt_succ_of_le ?_
      simp only [step, standing]
      refine (p.enter_left w _ _).trans ?_
      split
      · exact (by decide : 3 ≤ 4)
      · exact Nat.le_refl 4
  | embedding plan kept =>
      simp only [step, standing, embed]
      split
      · exact (p.fail_left _ _ _).trans_lt (Nat.succ_pos _)
      · exact (by decide : 3 < 4)
  | beforeCommit plan records =>
      simp only [step, standing]
      split
      · exact (by decide : 2 < 3)
      · exact (by decide : 0 < 3)
  | committing plan records =>
      simp only [step, standing]
      split
      · exact (p.fail_left _ _ _).trans_lt (Nat.succ_pos _)
      · exact (by decide : 1 < 2)
  | removing =>
      simp only [step, standing]
      exact (by decide : 1 < 2)
  | ended result => exact absurd standing (goesOn result)

/-- The pass has ended, or waits for its lock. -/
structure Stops : Prop where
  idle : p.step w = (w, p)
  committed : p.phase.committed = CodeSearch.committed p.result

theorem step_left : p.Stops w ∨ (p.step w).2.phase.left < p.phase.left := by
  by_cases goesOn : (∀ result, p.phase ≠ .ended result) ∧
      ∀ request, p.phase = .waiting request → p.holdsLock w = true
  · exact .inr (p.step_nearer w goesOn.1 goesOn.2)
  · refine .inl ?_
    rw [Classical.not_and_iff_not_or_not] at goesOn
    rcases goesOn with ended | waits
    · obtain ⟨result, standing⟩ := Classical.not_forall.mp ended
      rw [Classical.not_not] at standing
      refine ⟨by simp only [step, standing], ?_⟩
      rw [Pass.result, standing]
      rfl
    · obtain ⟨request, waits⟩ := Classical.not_forall.mp waits
      obtain ⟨standing, holds⟩ := Classical.not_imp.mp waits
      refine ⟨by simp [step, standing, holds], ?_⟩
      rw [Pass.result, standing]
      rfl

theorem repeat_left (n : Nat) :
    (n.repeat (stepIf fun _ => true) (w, p)).2.phase.left + n ≤ p.phase.left ∨
      (n.repeat (stepIf fun _ => true) (w, p)).2.Stops (n.repeat (stepIf fun _ => true) (w, p)).1 := by
  induction n with
  | zero => exact .inl (Nat.le_refl _)
  | succ n ih =>
      have next : (n + 1).repeat (stepIf fun _ => true) (w, p) =
          (n.repeat (stepIf fun _ => true) (w, p)).2.step
            (n.repeat (stepIf fun _ => true) (w, p)).1 := rfl
      generalize n.repeat (stepIf fun _ => true) (w, p) = standing at ih next
      rw [next]
      have stay (stops : standing.2.Stops standing.1) :
          (standing.2.step standing.1).2.Stops (standing.2.step standing.1).1 :=
        stops.idle.symm ▸ stops
      -- a pass that has stopped stays as it is, and any other one comes nearer to its end
      rcases ih with before | stops
      · refine (standing.2.step_left standing.1).symm.imp (fun nearer => ?_) stay
        omega
      · exact .inr (stay stops)

end

end Pass

/-- A pass that goes on alone reports whether it changed what is held. -/
theorem CodeIndex.process_committed (w : CodeIndex) (request : Request) :
    (Pass.maxSteps.repeat (Pass.stepIf fun _ => true) (Pass.start w request)).2.phase.committed =
      committed (w.process request).1 := by
  have ran : (w.process request).1 =
      (Pass.maxSteps.repeat (Pass.stepIf fun _ => true) (Pass.start w request)).2.result := rfl
  rw [ran]
  have left := Pass.repeat_left (Pass.start w request).1 (Pass.start w request).2 Pass.maxSteps
  rw [show ((Pass.start w request).1, (Pass.start w request).2) = Pass.start w request from rfl]
    at left
  generalize Pass.maxSteps.repeat (Pass.stepIf fun _ => true) (Pass.start w request) = last
    at left ⊢
  rcases left with before | stops
  · have none : last.2.phase.left = 0 := by
      have bound : last.2.phase.left + 12 ≤ 12 := before
      omega
    cases standing : last.2.phase with
    | ended result =>
        rw [Pass.result, standing]
        rfl
    | _ =>
        rw [standing] at none
        cases none
  · exact stops.committed

/-! ## From a built index on -/

theorem Session.sameReads_of_steps {s : Session} {number n : Nat}
    (along : Along Session.move (fun s m => m = .step number →
      s.index.state.SameReads (s.move m).index.state) s (List.replicate n (.step number))) :
    s.index.state.SameReads (s.moveAll (List.replicate n (.step number))).index.state := by
  induction n generalizing s with
  | zero => exact .refl _
  | succ n ih => exact (along.1 rfl).trans (ih along.2)

namespace CodeIndex

/-- What becomes of an index by any operations and sessions. -/
inductive Became (w₀ : CodeIndex) : CodeIndex → Prop where
  | refl : Became w₀ w₀
  | performed {w : CodeIndex} (became : Became w₀ w) (op : Operation) : Became w₀ (w.perform op)
  | moved {w : CodeIndex} (became : Became w₀ w) (moves : List Move) :
      Became w₀ ((Session.start w).moveAll moves).index

section

variable {c : IndexConfig} {parts : IndexParts} {now : Instant} {w₀ w : CodeIndex}

theorem Became.performAll (became : Became w₀ w) (ops : List Operation) :
    Became w₀ (w.performAll ops) :=
  List.foldlRecOn (motive := Became w₀) ops _ became fun _ before op _ => before.performed op

theorem Became.reached (became : Became w₀ w) (reached : Reached w₀) : Reached w := by
  induction became with
  | refl => exact reached
  | performed _ op ih => exact ih.performed op
  | moved _ moves ih => exact ih.moved moves

/-- What writing and dropping records keep of a store is true of it all along. -/
theorem Became.lasting (became : Became w₀ w) {P : VectorStore → Prop}
    (lasting : VectorIndex.Lasting P) (h : P w₀.state.vectors.store) :
    P w.state.vectors.store := by
  induction became with
  | refl => exact h
  | moved _ moves ih => exact Session.lasting_moveAll lasting ih moves
  | @performed w became op ih =>
      rcases prune_or_moveAll w op with rfl | ⟨moves, ran⟩
      · exact lasting.pruneStale ih
      · rw [ran]
        exact Session.lasting_moveAll lasting ih moves

theorem build_ownIds (built : build c parts now = .ok w)
    (own : ∀ store, parts.store = some store → store.OwnIds) : w.state.vectors.store.OwnIds := by
  obtain ⟨-, -, state, -⟩ := build_ok built
  have store : w.state.vectors.store = parts.store.getD (storeOf c.vector) := by
    rw [state]
    rfl
  rw [store]
  cases given : parts.store with
  | some store => exact own store given
  | none =>
      intro id r held
      have empty : (storeOf c.vector).get? id = none := by
        unfold storeOf
        split
        · rfl
        · rfl
      rw [Option.getD_none, empty] at held
      cases held

/-- A pass that does not report a commit or a removal leaves the index reading as before, whatever
    the index went through. When other passes go on in between, this is true of each of its steps.
    Of a store that refuses to write it is asked only that it takes back what is put back. -/
theorem uncommitted_reads (built : build c parts now = .ok w₀)
    (own : ∀ store, parts.store = some store → store.OwnIds) (became : Became w₀ w) :
    (∀ request, committed (w.process request).1 = false →
      Along Session.move (fun s m => s.restorable w.passes m = true) (Session.start w)
        (Session.solo request w.passes) →
      w.state.SameReads (w.process request).2.state) ∧
    ∀ (moves : List Move) (number : Nat) (request : Request) (p : Pass)
      (result : Except PassError Ack),
      ((Session.start w).moveAll moves).Has number request p → p.phase = .ended result →
      committed result = false →
      Along Session.move (fun s m => s.restorable number m = true) (Session.start w) moves →
      Along Session.move (fun s m => m = .step number →
        s.index.state.SameReads (s.move m).index.state) (Session.start w) moves := by
  have reached := became.reached (.built built)
  have ownIds := became.lasting VectorIndex.ownIds_lasting (build_ownIds built own)
  have orderly := Session.Orderly.start reached.numbered
  constructor
  · intro request uncommitted restorable
    have changed := w.process_committed request
    rw [uncommitted] at changed
    obtain ⟨-, held, -⟩ := (Session.start w).moveAll_steps request Pass.maxSteps
    rw [← Session.moveAll_solo] at held
    have along := orderly.uncommitted_along ownIds restorable held changed
    have reads : w.state.SameReads (((Session.start w).begin request).moveAll
        (List.replicate Pass.maxSteps (.step w.passes))).index.state :=
      Session.sameReads_of_steps (s := (Session.start w).begin request) along.2
    rw [← Session.moveAll_solo] at reads
    have ran : ((Session.start w).moveAll (Session.solo request w.passes)).index =
        (w.process request).2 := ((Session.start w).solo_process request).1
    rw [← ran]
    exact reads
  · intro moves number request p result held ended uncommitted restorable
    refine orderly.uncommitted_along ownIds restorable held ?_
    rw [ended]
    exact uncommitted

end

/-! ## A write that is refused -/

def faultyParts : IndexParts :=
  { smallParts with store := some (.faulty { dimension := 8 } 0 []) }

def faultyIndex : CodeIndex :=
  (build smallConfig faultyParts default).toOption.getD default

/-- A file is held, and the store is about to refuse the next write. -/
def beforeOutage : CodeIndex :=
  (faultyIndex.perform (.index (oneFunction "f()"))).perform (.outage 1)

/-- The only function of the file gets another name, whose record is refused when the one of the old
    name is dropped. -/
theorem refused_write_reads :
    committed (beforeOutage.process (.index (oneFunction "g()"))).1 = false ∧
      Along Session.move (fun s m => s.restorable beforeOutage.passes m = true)
        (Session.start beforeOutage)
        (Session.solo (.index (oneFunction "g()")) beforeOutage.passes) ∧
      beforeOutage.state.SameReads (beforeOutage.process (.index (oneFunction "g()"))).2.state := by
  have built : build smallConfig faultyParts default = .ok faultyIndex :=
    build_getD (by decide +kernel)
  have own : ∀ store, faultyParts.store = some store → store.OwnIds := by
    intro store given id r held
    cases given
    cases held
  have became : Became faultyIndex beforeOutage :=
    .performed (.performed .refl (.index (oneFunction "f()"))) (.outage 1)
  have computed : committed (beforeOutage.process (.index (oneFunction "g()"))).1 = false ∧
      Along Session.move (fun s m => s.restorable beforeOutage.passes m = true)
        (Session.start beforeOutage)
        (Session.solo (.index (oneFunction "g()")) beforeOutage.passes) := by
    decide +kernel
  obtain ⟨uncommitted, restorable⟩ := computed
  obtain ⟨alone, -⟩ := uncommitted_reads built own became
  exact ⟨uncommitted, restorable, alone _ uncommitted restorable⟩

end CodeIndex

end CodeSearch
