import CodeSearch.Proofs.Index.Session

/-! # The latest event wins

Whatever the order in which passes over a path take their steps, commits and removals take effect
in the order of their events, the pass of the latest event is not superseded, and what it reports
is true of the index.
-/

namespace CodeSearch

open Time (Instant)

/-! ## What a step leaves to others -/

/-- What the pass that takes a step leaves as it was. -/
structure Beside (w : CodeIndex) (p : Pass) (taken : CodeIndex × Pass) : Prop where
  number : taken.2.number = p.number
  path : taken.2.path = p.path
  generation : taken.2.generation = p.generation
  registered : taken.1.registered = w.registered
  passes : taken.1.passes = w.passes
  events : taken.1.files.SameEvents w.files
  units : ∀ other, other ≠ p.path → taken.1.state.unit? other = w.state.unit? other
  unit : taken.1.state.unit? p.path = w.state.unit? p.path ∨
    p.phase.takesEffect taken.2.phase = true
  numbered : w.locks.Numbered → taken.1.locks.Numbered
  keeps : ∀ path number, Keyed.get? w.locks.numberOf path = some number →
    Keyed.get? taken.1.locks.numberOf path = some number
  /-- Other passes lose nothing of what they have of the locks. -/
  others : w.locks.Numbered → ∀ other, other ≠ p.number →
    PathLocks.Keeps other w.locks taken.1.locks

section

variable {w after : CodeIndex} {request : Request} {p : Pass} {taken : CodeIndex × Pass}

theorem Elsewhere.beside (elsewhere : Elsewhere p.path w after) {phase : Phase}
    (unit : after.state.unit? p.path = w.state.unit? p.path ∨ p.phase.takesEffect phase = true) :
    Beside w p (p.goOn after phase) := by
  constructor
  case number | path | generation => rfl
  case registered => exact elsewhere.registered
  case passes => exact elsewhere.passes
  case events => exact elsewhere.events
  case units => exact elsewhere.units
  case unit => exact unit
  case numbered => exact fun numbered => elsewhere.locks.symm ▸ numbered
  case keeps => exact fun path number known => elsewhere.locks.symm ▸ known
  case others => exact fun _ other _ => elsewhere.locks.symm ▸ .refl

theorem Quiet.beside_finish (quiet : Quiet p.path w after) (result : Except PassError Ack) :
    Beside w p (p.finish after result) := by
  have locks : (p.finish after result).1.locks =
      p.lock.elim w.locks fun lock => w.locks.release lock p.number := by
    rw [← quiet.locks]
    rfl
  constructor
  case number | path | generation => rfl
  case registered => exact quiet.registered
  case passes => exact quiet.passes
  case events => exact quiet.events
  case units => exact quiet.units
  case unit => exact .inl quiet.unit
  case numbered =>
    intro numbered
    rw [locks]
    cases p.lock with
    | none => exact numbered
    | some _ => exact numbered
  case keeps =>
    intro path number known
    rw [locks]
    cases p.lock with
    | none => exact known
    | some _ => exact known
  case others =>
    intro _ other different
    rw [locks]
    cases p.lock with
    | none => exact .refl
    | some lock => exact .release lock different

theorem Taken.beside (t : Taken w request p taken) : Beside w p taken := by
  cases t with
  | idle =>
      exact ⟨rfl, rfl, rfl, rfl, rfl, fun _ => rfl, fun _ _ => rfl, .inl rfl, id, fun _ _ => id,
        fun _ _ _ => .refl⟩
  | queued standing =>
      exact ⟨rfl, rfl, rfl, rfl, rfl, fun _ => rfl, fun _ _ => rfl, .inl rfl,
        fun numbered => PathLocks.request_numbered numbered _ _,
        fun _ _ known => PathLocks.request_keeps known _ _,
        fun numbered other _ => .request numbered _ _⟩
  | admitted phase => exact (Quiet.refl p.path w).toElsewhere.beside (.inl rfl)
  | worked after phase standing quiet => exact quiet.toElsewhere.beside (.inl quiet.unit)
  | settled after phase outcome standing elsewhere noted =>
      refine elsewhere.beside ?_
      rcases noted with effect | quiet
      · exact .inr effect
      · exact .inl quiet.unit
  | finished after result quiet => exact quiet.beside_finish result

/-- Until it ends, a pass keeps its place in the queue of its path, and it has the lock while it is
    active. -/
structure Pass.Lined (w : CodeIndex) (p : Pass) : Prop where
  place : (∀ result, p.phase.role ≠ .ended result) → ∀ number, p.lock = some number →
    Keyed.get? w.locks.numberOf p.path = some number ∧ p.number ∈ w.locks.queue number
  holds : p.Active → p.holdsLock w = true

theorem Pass.Lined.carry (h : p.Lined w) (keeps : PathLocks.Keeps p.number w.locks after.locks) :
    p.Lined after := by
  constructor
  case place =>
    intro goesOn number lock
    obtain ⟨known, waits⟩ := h.place goesOn number lock
    exact keeps.place p.path number known waits
  case holds =>
    intro active
    obtain ⟨number, lock, holds⟩ := Pass.holdsLock_iff.mp (h.holds active)
    obtain ⟨known, -⟩ := h.place active.role.2 number lock
    exact Pass.holdsLock_iff.mpr ⟨number, lock, keeps.holds p.path number known holds⟩

/-- Another pass over the path that holds the lock is no other pass. -/
theorem Pass.Lined.unique {q : Pass} (hp : p.Lined w) (hq : q.Lined w)
    (goesOn : ∀ result, p.phase.role ≠ .ended result) (holds : p.holdsLock w = true)
    (active : q.Active) (path : p.path = q.path) : p.number = q.number :=
  Pass.holder_unique path (fun number lock => (hp.place goesOn number lock).1)
    (fun number lock => (hq.place active.role.2 number lock).1) holds (hq.holds active)

theorem Pass.Lined.step (h : p.Lined w) (t : Taken w request p taken) : taken.2.Lined taken.1 := by
  cases t with
  | idle => exact h
  | queued standing =>
      refine ⟨fun _ number lock => ?_, fun active => absurd rfl active.role.1⟩
      cases lock
      exact ⟨PathLocks.request_number .., PathLocks.mem_request ..⟩
  | admitted phase standing holds =>
      exact ⟨fun _ => h.place (congrArg Phase.role standing ▸ nofun), fun _ => holds⟩
  | worked after phase standing quiet =>
      have place := h.place (standing ▸ nofun)
      have holds := h.holds (.inl standing)
      rw [Pass.holdsLock, ← quiet.locks] at holds
      rw [← quiet.locks] at place
      exact ⟨fun _ => place, fun _ => holds⟩
  | settled after phase outcome standing elsewhere =>
      have place := h.place (standing ▸ nofun)
      have holds := h.holds (.inl standing)
      rw [Pass.holdsLock, ← elsewhere.locks] at holds
      rw [← elsewhere.locks] at place
      exact ⟨fun _ => place, fun _ => holds⟩
  | finished after result =>
      exact ⟨fun goesOn => absurd rfl (goesOn result), fun active => absurd rfl (active.role.2 result)⟩

theorem Phase.takesEffect_roles {before after : Phase} (h : before.takesEffect after = true) :
    before.role = .working ∧ ∃ outcome, after.role = .settled outcome := by
  unfold takesEffect at h
  split at h
  · exact ⟨rfl, _, rfl⟩
  · exact ⟨rfl, _, rfl⟩
  · cases h

/-- A pass goes on to have at hand what was asked. -/
theorem Taken.asked (t : Taken w request p taken) (asked : p.phase.Asked w.registered request) :
    taken.2.phase.Asked taken.1.registered request := by
  cases t with
  | idle => exact asked
  | queued => rfl
  | admitted phase _ _ _ _ goesOn => exact goesOn
  | worked after phase _ quiet _ goesOn => exact quiet.registered.symm ▸ goesOn
  | settled after phase outcome _ elsewhere _ _ goesOn => exact elsewhere.registered.symm ▸ goesOn
  | finished after result => trivial

/-- What is settled stays so. -/
theorem Taken.past (t : Taken w request p taken) (past : p.Past) : taken.2.Past := by
  cases t with
  | idle => exact past
  | queued standing => exact absurd (congrArg Phase.role standing) past.role.1
  | admitted phase standing => exact absurd (congrArg Phase.role standing) past.role.1
  | worked after phase standing => exact absurd standing past.role.2
  | settled after phase outcome standing => exact absurd standing past.role.2
  | finished after result => exact .inr ⟨result, rfl⟩

/-- A pass that was early and is no more holds the lock of its path. -/
theorem Taken.early (t : Taken w request p taken) (early : p.phase.role = .early) :
    taken.2.phase.role = .early ∨ p.holdsLock w = true := by
  cases t with
  | idle => exact .inl early
  | queued => exact .inl rfl
  | admitted phase standing holds => exact .inr holds
  | worked after phase standing =>
      rw [early] at standing
      cases standing
  | settled after phase outcome standing =>
      rw [early] at standing
      cases standing
  | finished after result quiet has => exact .inr (has.resolve_left fun late => late early)

/-- A pass that is active was so before, or the latest. -/
theorem Taken.active (t : Taken w request p taken) (active : taken.2.Active) :
    p.Active ∨ p.isLatest w = true := by
  cases t with
  | idle => exact .inl active
  | queued => exact absurd rfl active.role.1
  | admitted phase standing holds latest => exact .inr latest
  | worked after phase standing => exact .inl (.inl standing)
  | settled after phase outcome standing => exact .inl (.inl standing)
  | finished after result => exact absurd rfl (active.role.2 result)

end

namespace Pass
section
variable (w : CodeIndex) (p : Pass)

theorem fail_number (job : Job) (cause : IndexError) :
    (p.fail w job cause).2.number = p.number := by
  unfold fail
  split
  · rfl
  · split
    · rfl
    · rfl
    · rfl

theorem enter_number (stage : Stage) (phase : Phase) :
    (p.enter w stage phase).2.number = p.number := by
  unfold enter
  split
  · rfl
  · rfl

theorem identify_number (change : FileChange) : (p.identify w change).2.number = p.number := by
  unfold identify
  split
  · rfl
  · simp only
    split
    · split
      · rfl
      · rfl
    · rfl

/-- A pass keeps its number. -/
theorem step_number : (p.step w).2.number = p.number := by
  cases standing : p.phase with
  | begun | confirming | beforeParsing | marking | clearing | removing =>
      simp only [step, standing]
      rfl
  | ended => simp only [step, standing]
  | admitted => simpa only [step, standing] using p.identify_number w _
  | beforeExtracting | beforeEmbedding => simpa only [step, standing] using p.enter_number w _ _
  | waiting =>
      simp only [step, standing]
      split
      · rfl
      · split
        · rfl
        · split
          · rfl
          · rfl
  | parsing | extracting | committing =>
      simp only [step, standing]
      split
      · rw [fail_number]
      · rfl
  | embedding =>
      simp only [step, standing, embed]
      split
      · rw [fail_number]
      · rfl
  | beforeCommit =>
      simp only [step, standing]
      split
      · rfl
      · rfl

end
end Pass

/-! ## A step keeps a session in order -/

namespace Session

variable {s : Session} {request : Request} {p : Pass} {taken : CodeIndex × Pass} {number : Nat}

theorem effects_grow (s : Session) (request : Request) (p : Pass) (taken : CodeIndex × Pass) :
    s.effects ⊆ (s.advanced request p taken).effects := by
  unfold advanced
  split
  · exact List.subset_append_left _ _
  · exact List.Subset.refl _

theorem mem_effects {path : String} {generation : Nat}
    (h : (path, generation) ∈ (s.advanced request p taken).effects) :
    (path, generation) ∈ s.effects ∨
      p.phase.takesEffect taken.2.phase = true ∧ p.path = path ∧ p.generation = generation := by
  unfold advanced at h
  split at h
  · rename_i effect
    rcases List.mem_append.mp h with old | new
    · exact .inl old
    · cases List.mem_singleton.mp new
      exact .inr ⟨effect, rfl, rfl⟩
  · exact .inl h

theorem has_advanced {m : Nat} {r : Request} {q : Pass}
    (h : (s.advanced request p taken).Has m r q) :
    m = p.number ∧ request = r ∧ q = taken.2 ∨ m ≠ p.number ∧ s.Has m r q := by
  have put : Keyed.get? (Keyed.put s.passes p.number (request, taken.2)) m = some (r, q) := h
  rw [Keyed.get?_put] at put
  split at put
  · rename_i same
    cases put
    exact .inl ⟨same, rfl, rfl⟩
  · rename_i different
    exact .inr ⟨different, put⟩

theorem advanced_has_self (s : Session) (request : Request) (p : Pass) (taken : CodeIndex × Pass) :
    (s.advanced request p taken).Has p.number request taken.2 :=
  Keyed.get?_put_self ..

theorem advanced_has_other {m : Nat} {r : Request} {q : Pass} (held : s.Has m r q)
    (different : m ≠ p.number) : (s.advanced request p taken).Has m r q :=
  (Keyed.get?_put_of_ne _ _ different).trans held

/-- Every pass is still there, with its path and its generation. -/
theorem advanced_has (held : s.Has p.number request p) (beside : Beside s.index p taken) {m : Nat}
    {r : Request} {q : Pass} (heldQ : s.Has m r q) :
    ∃ q', (s.advanced request p taken).Has m r q' ∧ q'.path = q.path ∧
      q'.generation = q.generation ∧ (q = p ∧ q' = taken.2 ∨ q' = q) := by
  by_cases same : m = p.number
  · subst same
    cases Option.some.inj (held.symm.trans heldQ)
    exact ⟨taken.2, s.advanced_has_self .., beside.path, beside.generation, .inl ⟨rfl, rfl⟩⟩
  · exact ⟨q, advanced_has_other heldQ same, rfl, rfl, .inr rfl⟩

/-- What is found after a step was there before, with its path and its generation. -/
theorem has_before (held : s.Has p.number request p) (beside : Beside s.index p taken) {m : Nat}
    {r : Request} {q' : Pass} (heldQ : (s.advanced request p taken).Has m r q') :
    ∃ q, s.Has m r q ∧ q'.path = q.path ∧ q'.generation = q.generation ∧
      (m = p.number ∧ q = p ∧ q' = taken.2 ∨ m ≠ p.number ∧ q' = q) := by
  rcases has_advanced heldQ with ⟨rfl, rfl, rfl⟩ | ⟨different, old⟩
  · exact ⟨p, held, beside.path, beside.generation, .inl ⟨rfl, rfl, rfl⟩⟩
  · exact ⟨q', old, rfl, rfl, .inr ⟨different, rfl⟩⟩

/-- What another pass stands for is not changed by a step, unless the step takes effect and comes
    later. -/
theorem Orderly.standing_other (h : Orderly s) (held : s.Has p.number request p)
    (beside : Beside s.index p taken) {m : Nat} {r : Request} {q : Pass} (heldQ : s.Has m r q)
    (different : m ≠ p.number) :
    q.Standing taken.1 (s.advanced request p taken).effects r := by
  have own : q.number = m := (h.own m r q heldQ).1
  have standing := h.standing m r q heldQ
  refine standing.carry beside.registered (fun k known => beside.keeps _ k known) ?_ ?_
    (s.effects_grow request p taken) ?_
  · intro holds
    obtain ⟨k, lock, head⟩ := Pass.holdsLock_iff.mp holds
    refine Pass.holdsLock_iff.mpr ⟨k, lock, ?_⟩
    have keeps := beside.others h.numbered q.number (own ▸ different)
    exact keeps.holds q.path k (standing.lock k lock) head
  · intro generation known
    exact ⟨generation, (beside.events q.path).trans known, Nat.le_refl _⟩
  · intro late
    by_cases here : q.path = p.path
    · rcases beside.unit with same | effect
      · exact .inl (here ▸ same)
      · obtain ⟨working, -⟩ := Phase.takesEffect_roles effect
        have earlier : q.generation < p.generation :=
          (h.alone m p.number r request q p heldQ held different here (.inl working)).resolve_left late
        refine .inr ⟨p.generation, ?_, earlier⟩
        simp only [advanced, effect, if_true, here]
        exact List.mem_append_right _ List.mem_cons_self
    · exact .inl (beside.units q.path here)

/-- A pass that is not the latest has a later one after it. -/
theorem Orderly.late (h : Orderly s) (held : s.Has p.number request p) {after : CodeIndex}
    (events : after.files.SameEvents s.index.files) (late : p.isLatest s.index = false) :
    p.Late after := by
  obtain ⟨other, r, q, heldQ, path, known, before⟩ := h.latest _ _ _ held
  have different : p.generation ≠ q.generation := by
    intro same
    rw [← same] at known
    rw [Pass.isLatest_iff.mpr known] at late
    cases late
  exact ⟨q.generation, (events p.path).trans known, Nat.lt_of_le_of_ne before different⟩

/-- All other passes over the path came before the latest one. -/
theorem Orderly.before_latest (h : Orderly s) (held : s.Has p.number request p)
    (latest : p.isLatest s.index = true) {m : Nat} {r : Request} {q : Pass} (heldQ : s.Has m r q)
    (different : m ≠ p.number) (path : q.path = p.path) : q.generation < p.generation := by
  obtain ⟨other, r', last, heldLast, pathLast, known, before⟩ := h.latest _ _ _ heldQ
  rw [path, Pass.isLatest_iff.mp latest] at known
  have same : p.generation = last.generation := Option.some.inj known
  refine Nat.lt_of_le_of_ne (same ▸ before) fun equal => different ?_
  exact h.distinct _ _ _ _ _ _ heldQ held path equal

/-- Where a pass stands after its step. -/
theorem Orderly.standing_self (h : Orderly s) (held : s.Has p.number request p)
    (t : Taken s.index request p taken) :
    taken.2.Standing taken.1 (s.advanced request p taken).effects request := by
  have standing := h.standing p.number request p held
  have beside := t.beside
  have grown := s.effects_grow request p taken
  cases t with
  | idle =>
      exact standing.carry rfl (fun _ known => known) id
        (fun generation known => ⟨generation, known, Nat.le_refl _⟩) grown fun _ => .inl rfl
  | queued =>
      refine ⟨standing.path, rfl, fun number locked => ?_, fun active => absurd rfl active.role.1,
        trivial⟩
      cases locked
      exact PathLocks.request_number _ _ _
  | admitted phase _ holds _ role asked =>
      refine ⟨standing.path, asked, standing.lock, fun _ => holds, ?_⟩
      rw [show (p.goOn s.index phase).2.phase.role = .working from role]
      trivial
  | worked after phase working quiet role asked =>
      refine ⟨standing.path, quiet.registered.symm ▸ asked,
        fun number locked => beside.keeps _ _ (standing.lock number locked), fun _ => ?_, ?_⟩
      · have holds := standing.holds (.inl working)
        rw [Pass.holdsLock, ← quiet.locks] at holds
        exact holds
      · rw [show (p.goOn after phase).2.phase.role = .working from role]
        trivial
  | settled after phase outcome working elsewhere _ role asked holds =>
      refine ⟨standing.path, elsewhere.registered.symm ▸ asked,
        fun number locked => beside.keeps _ _ (standing.lock number locked), fun _ => ?_, ?_⟩
      · have holds := standing.holds (.inl working)
        rw [Pass.holdsLock, ← elsewhere.locks] at holds
        exact holds
      · rw [show (p.goOn after phase).2.phase.role = .settled outcome from role]
        refine ⟨?_, .inl (elsewhere.registered.symm ▸ holds)⟩
        rintro rfl
        exact holds
  | finished after result quiet has how =>
      refine ⟨standing.path, trivial,
        fun number locked => beside.keeps _ _ (standing.lock number locked),
        fun active => absurd rfl (active.role.2 result), ?_⟩
      cases result with
      | error cause => trivial
      | ok ack =>
          rcases how with ⟨superseded, late⟩ | settled
          · exact .inl ⟨superseded, h.late held beside.events late⟩
          · have told := standing.told
            rw [settled] at told
            exact .inr (told.carry quiet.registered grown (.inl (standing.path ▸ quiet.unit)))

/-- Beside a pass that has the path, all others wait or came before, also after a step. -/
theorem Orderly.alone_advanced (h : Orderly s) (held : s.Has p.number request p)
    (t : Taken s.index request p taken) {m n : Nat} {r r' : Request} {a' b' : Pass}
    (heldA : (s.advanced request p taken).Has m r a')
    (heldB : (s.advanced request p taken).Has n r' b') (different : m ≠ n)
    (path : a'.path = b'.path) (active : b'.Active) :
    a'.phase.role = .early ∨ a'.generation < b'.generation := by
  have beside := t.beside
  obtain ⟨a, oldA, pathA, generationA, whichA⟩ := has_before held beside heldA
  obtain ⟨b, oldB, pathB, generationB, whichB⟩ := has_before held beside heldB
  have pathOld : a.path = b.path := pathA.symm.trans (path.trans pathB)
  rw [generationA, generationB]
  rcases whichB with ⟨rfl, rfl, rfl⟩ | ⟨otherB, rfl⟩
  · obtain ⟨-, rfl⟩ : m ≠ b.number ∧ a' = a :=
      whichA.resolve_left fun self => different self.1
    rcases t.active active with before | latest
    · exact h.alone _ _ _ _ _ _ oldA oldB different pathOld before
    · exact .inr (h.before_latest held latest oldA different pathOld)
  · rcases whichA with ⟨rfl, rfl, rfl⟩ | ⟨otherA, rfl⟩
    · rcases h.alone _ _ _ _ _ _ oldA oldB different pathOld active with early | earlier
      · refine (t.early early).imp_right fun holds => absurd ?_ different
        -- both hold the lock of the path
        have standingB := h.standing _ _ _ oldB
        have same := Pass.holder_unique pathOld (h.standing _ _ _ oldA).lock standingB.lock holds
          (standingB.holds active)
        exact same.trans (h.own _ _ _ oldB).1
      · exact .inr earlier
    · exact h.alone _ _ _ _ _ _ oldA oldB different pathOld active

/-- What took effect on a path came before every pass that works on it. -/
theorem Orderly.effect_before (h : Orderly s) (held : s.Has p.number request p)
    (working : p.phase.role = .working) {generation : Nat}
    (inside : (p.path, generation) ∈ s.effects) : generation < p.generation := by
  obtain ⟨m, r, q, heldQ, path, rfl, past⟩ := h.caused p.path generation inside
  have other : m ≠ p.number := by
    rintro rfl
    cases Option.some.inj (held.symm.trans heldQ)
    exact past.role.2 working
  exact (h.alone _ _ _ _ _ _ heldQ held other path (.inl working)).resolve_left past.role.1

theorem Answering.advanced (h : Answering s) (held : s.Has p.number request p)
    (t : Taken s.index request p taken) : Answering (s.advanced request p taken) := by
  have beside := t.beside
  constructor
  case own =>
    intro m r q' heldQ
    obtain ⟨q, old, -, -, ⟨rfl, rfl, rfl⟩ | ⟨-, rfl⟩⟩ := has_before held beside heldQ
    · obtain ⟨-, below⟩ := h.own _ _ _ old
      exact ⟨beside.number, beside.passes.symm ▸ below⟩
    · obtain ⟨own, below⟩ := h.own _ _ _ old
      exact ⟨own, beside.passes.symm ▸ below⟩
  case path =>
    intro m r q' heldQ
    obtain ⟨q, old, path, -⟩ := has_before held beside heldQ
    exact path.trans (h.path m r q old)
  case asked =>
    intro m r q' heldQ
    rcases has_advanced heldQ with ⟨rfl, rfl, rfl⟩ | ⟨-, old⟩
    · exact t.asked (h.asked _ _ _ held)
    · exact beside.registered.symm ▸ h.asked m r q' old

theorem Orderly.advanced (h : Orderly s) (held : s.Has p.number request p)
    (t : Taken s.index request p taken) : Orderly (s.advanced request p taken) := by
  have beside := t.beside
  constructor
  case own => exact (h.answering.advanced held t).own
  case standing =>
    intro m r q' heldQ
    rcases has_advanced heldQ with ⟨rfl, rfl, rfl⟩ | ⟨different, old⟩
    · exact h.standing_self held t
    · exact h.standing_other held beside old different
  case latest =>
    intro m r q' heldQ
    obtain ⟨q, old, path, generation, -⟩ := has_before held beside heldQ
    obtain ⟨other, r₁, q₁, held₁, path₁, known, before⟩ := h.latest m r q old
    obtain ⟨q₂, held₂, path₂, generation₂, -⟩ := advanced_has held beside held₁
    refine ⟨other, r₁, q₂, held₂, (path₂.trans path₁).trans path.symm, ?_, ?_⟩
    · rw [path, generation₂]
      exact (beside.events q.path).trans known
    · rw [generation, generation₂]
      exact before
  case distinct =>
    intro m n r r' a' b' heldA heldB path generation
    obtain ⟨a, oldA, pathA, generationA, -⟩ := has_before held beside heldA
    obtain ⟨b, oldB, pathB, generationB, -⟩ := has_before held beside heldB
    exact h.distinct m n r r' a b oldA oldB (pathA.symm.trans (path.trans pathB))
      (generationA.symm.trans (generation.trans generationB))
  case alone =>
    exact fun m n r r' a b heldA heldB different path active =>
      h.alone_advanced held t heldA heldB different path active
  case numbered => exact beside.numbered h.numbered
  case ordered =>
    unfold Session.advanced
    split
    · rename_i effect
      -- whoever works has the path, so that every effect so far is of an earlier event
      obtain ⟨working, -⟩ := Phase.takesEffect_roles effect
      refine List.pairwise_append.mpr ⟨h.ordered, List.pairwise_singleton _ _, ?_⟩
      rintro ⟨path, generation⟩ inside last new same
      cases List.mem_singleton.mp new
      cases same
      exact h.effect_before held working inside
    · exact h.ordered
  case caused =>
    intro path generation inside
    rcases mem_effects inside with old | ⟨effect, rfl, rfl⟩
    · obtain ⟨m, r, q, heldQ, rfl, rfl, past⟩ := h.caused path generation old
      obtain ⟨q', heldAfter, path, generation, which⟩ := advanced_has held beside heldQ
      refine ⟨m, r, q', heldAfter, path, generation, ?_⟩
      rcases which with ⟨rfl, rfl⟩ | rfl
      · exact t.past past
      · exact past
    · exact ⟨p.number, request, taken.2, s.advanced_has_self .., beside.path, beside.generation,
        .inl (Phase.takesEffect_roles effect).2⟩

/-! ## Whole sessions -/

theorem step_eq (held : s.Has number request p) :
    s.step number = s.advanced request p (p.step s.index) := by
  unfold Has at held
  simp only [step, held]

/-- There is no pass of the number, or the pass takes a step. -/
theorem Answering.step_cases (h : Answering s) (number : Nat) :
    s.step number = s ∨ ∃ request p, p.number = number ∧ s.Has p.number request p ∧
      s.step p.number = s.advanced request p (p.step s.index) := by
  cases found : Keyed.get? s.passes number with
  | none => exact .inl (by simp only [Session.step, found])
  | some entry =>
      obtain ⟨request, p⟩ := entry
      obtain ⟨rfl, -⟩ := h.own number request p found
      exact .inr ⟨request, p, rfl, found, step_eq found⟩

theorem Answering.move (h : Answering s) (m : Move) : Answering (s.move m) := by
  rcases s.begin_or_step_or_around m with ⟨request, rfl⟩ | ⟨number, rfl⟩ | ⟨op, aside, moved⟩
  · exact h.begin request
  · rw [Session.move]
    rcases h.step_cases number with still | ⟨request, p, rfl, held, taken⟩
    · rw [still]
      exact h
    · rw [taken]
      exact h.advanced held (p.step_taken s.index (h.path _ _ _ held) (h.asked _ _ _ held))
  · have quiet := around_quiet "" s.index aside
    rw [moved]
    exact h.beside quiet.registered quiet.passes

theorem Orderly.step (h : Orderly s) (number : Nat) : Orderly (s.step number) := by
  rcases h.answering.step_cases number with still | ⟨request, p, rfl, held, taken⟩
  · rw [still]
    exact h
  · have standing := h.standing _ _ _ held
    rw [taken]
    exact h.advanced held (p.step_taken s.index standing.path standing.asked)

theorem Orderly.around (h : Orderly s) {op : Operation} (aside : op.Aside) :
    Orderly (s.around op) :=
  h.quiet fun path => around_quiet path s.index aside

theorem Orderly.move (h : Orderly s) (m : Move) : Orderly (s.move m) := by
  rcases s.begin_or_step_or_around m with ⟨request, rfl⟩ | ⟨number, rfl⟩ | ⟨op, aside, moved⟩
  · exact h.begin request
  · exact h.step number
  · rw [moved]
    exact h.around aside

theorem Orderly.moveAll (h : Orderly s) (moves : List Move) : Orderly (s.moveAll moves) :=
  List.foldlRecOn (motive := Orderly) moves _ h fun _ orderly m _ => orderly.move m

/-- A pass that is begun in a session and goes on alone takes the steps of an operation. -/
theorem moveAll_steps (s : Session) (request : Request) (n : Nat) :
    ((s.begin request).moveAll (List.replicate n (.step s.index.passes))).index =
        (n.repeat (Pass.stepIf fun _ => true) (Pass.start s.index request)).1 ∧
      ((s.begin request).moveAll (List.replicate n (.step s.index.passes))).Has s.index.passes
        request (n.repeat (Pass.stepIf fun _ => true) (Pass.start s.index request)).2 ∧
      (n.repeat (Pass.stepIf fun _ => true) (Pass.start s.index request)).2.number =
        s.index.passes := by
  induction n with
  | zero => exact ⟨rfl, s.begin_has_new request, rfl⟩
  | succ n ih =>
      obtain ⟨index, held, own⟩ := ih
      have last : (s.begin request).moveAll (List.replicate (n + 1) (.step s.index.passes)) =
          ((s.begin request).moveAll (List.replicate n (.step s.index.passes))).step
            s.index.passes := by
        rw [List.replicate_succ', Session.moveAll, List.foldl_append]
        rfl
      rw [last, step_eq held, index]
      exact ⟨rfl, own ▸ advanced_has_self .., (Pass.step_number _ _).trans own⟩

/-- A pass that is begun and takes all its steps. -/
def solo (request : Request) (number : Nat) : List Move :=
  .begin request :: List.replicate Pass.maxSteps (.step number)

theorem moveAll_solo (s : Session) (request : Request) (number : Nat) :
    s.moveAll (solo request number) =
      (s.begin request).moveAll (List.replicate Pass.maxSteps (.step number)) := by
  rw [solo]
  generalize Pass.maxSteps = n
  rfl

/-- In any session, a pass that is begun and goes on alone does what an operation does. -/
theorem solo_process (s : Session) (request : Request) :
    (s.moveAll (solo request s.index.passes)).index = (s.index.process request).2 ∧
      ∃ p, (s.moveAll (solo request s.index.passes)).Has s.index.passes request p ∧
        p.result = (s.index.process request).1 := by
  have ran : s.index.process request =
      ((Pass.maxSteps.repeat (Pass.stepIf fun _ => true) (Pass.start s.index request)).2.result,
        (Pass.maxSteps.repeat (Pass.stepIf fun _ => true) (Pass.start s.index request)).1) := rfl
  obtain ⟨index, held, -⟩ := s.moveAll_steps request Pass.maxSteps
  rw [ran, moveAll_solo]
  exact ⟨index, _, held, rfl⟩

/-- What is held of a path changes only by an effect that is noted. -/
theorem Orderly.unit_move (h : Orderly s) (m : Move) (path : String) :
    (s.move m).index.state.unit? path = s.index.state.unit? path ∨
      ∃ generation, (s.move m).effects = s.effects ++ [(path, generation)] := by
  rcases s.begin_or_step_or_around m with ⟨request, rfl⟩ | ⟨number, rfl⟩ | ⟨op, aside, moved⟩
  · exact .inl rfl
  · rw [Session.move]
    rcases h.answering.step_cases number with still | ⟨request, p, rfl, held, taken⟩
    · exact .inl (by rw [still])
    · have standing := h.standing _ _ _ held
      have beside := (p.step_taken s.index standing.path standing.asked).beside
      rw [taken]
      by_cases here : path = p.path
      · rcases beside.unit with same | effect
        · exact .inl (here ▸ same)
        · refine .inr ⟨p.generation, ?_⟩
          simp only [Session.advanced, effect, if_true, here]
      · exact .inl (beside.units path here)
  · rw [moved]
    exact .inl (around_quiet path s.index aside).unit

end Session

/-- The latest event for a path wins. -/
structure LatestWins (s : Session) : Prop where
  /-- Commits and removals of a path take effect in the order of their events. -/
  ordered : s.effects.Pairwise fun a b => a.1 = b.1 → a.2 < b.2
  /-- The last pass over a path is not superseded. -/
  prevails : ∀ number request p ack, s.Has number request p → s.IsLast p →
    p.phase = .ended (.ok ack) → ack.outcome ≠ .superseded
  /-- When it was indexed or found unchanged, its content is held in its language. -/
  indexed : ∀ number request p ack, s.Has number request p → s.IsLast p →
    p.phase = .ended (.ok ack) →
    (ack.outcome = .unchanged ∨ ∃ counts, ack.outcome = .indexed counts) →
    ∃ change, request = .index change ∧ s.index.state.Serves s.index.registered change
  /-- When it was removed or found not to be indexed, nothing is held of the path. -/
  removed : ∀ number request p ack, s.Has number request p → s.IsLast p →
    p.phase = .ended (.ok ack) →
    (ack.outcome = .notIndexed ∨ ∃ symbols, ack.outcome = .removed symbols) →
    s.index.state.unit? p.path = none

namespace Session

/-- What the last pass over a path reports is true. -/
theorem Orderly.last_holds {s : Session} (h : Orderly s) {number : Nat} {request : Request} {p : Pass}
    {ack : Ack} (held : s.Has number request p) (last : s.IsLast p)
    (ended : p.phase = .ended (.ok ack)) :
    ack.outcome ≠ .superseded ∧ ack.outcome.Holds s.index.registered request s.index.state := by
  have told := (h.standing number request p held).told
  rw [ended] at told
  rcases told with ⟨-, generation, later, less⟩ | ⟨other, holds | ⟨generation, effect, less⟩⟩
  · obtain ⟨m, r, q, heldQ, path, known, -⟩ := h.latest number request p held
    rw [later] at known
    cases known
    exact absurd (last m r q heldQ path) (Nat.not_le_of_gt less)
  · exact ⟨other, holds⟩
  · obtain ⟨m, r, q, heldQ, path, rfl, -⟩ := h.caused p.path generation effect
    exact absurd (last m r q heldQ path) (Nat.not_le_of_gt less)

theorem Orderly.latestWins {s : Session} (h : Orderly s) : LatestWins s := by
  constructor
  case ordered => exact h.ordered
  case prevails => exact fun number request p ack held last ended => (h.last_holds held last ended).1
  case indexed =>
    intro number request p ack held last ended served
    obtain ⟨-, holds⟩ := h.last_holds held last ended
    rcases served with unchanged | ⟨counts, indexed⟩
    · rw [unchanged] at holds
      exact holds
    · rw [indexed] at holds
      exact holds
  case removed =>
    intro number request p ack held last ended gone
    obtain ⟨-, holds⟩ := h.last_holds held last ended
    rw [(h.standing number request p held).path]
    rcases gone with absent | ⟨symbols, removed⟩
    · rw [absent] at holds
      exact holds
    · rw [removed] at holds
      exact holds

end Session

/-! ## From a built index on -/

namespace CodeIndex

/-- An operation is a pruning, or does what a session does. -/
theorem prune_or_moveAll (w : CodeIndex) (op : Operation) :
    op = .prune ∨ ∃ moves, w.perform op = ((Session.start w).moveAll moves).index := by
  have alone := (Session.start w).solo_process
  cases op with
  | prune => exact .inl rfl
  | index change => exact .inr ⟨_, (alone (.index change)).1.symm⟩
  | remove path => exact .inr ⟨_, (alone (.remove path)).1.symm⟩
  | feedback id signal => exact .inr ⟨[.feedback id signal], rfl⟩
  | clock now => exact .inr ⟨[.clock now], rfl⟩
  | provider embedder => exact .inr ⟨[.provider embedder], rfl⟩
  | outage write => exact .inr ⟨[.outage write], rfl⟩

/-- An index that was built, and since then went through any operations and sessions. -/
inductive Reached : CodeIndex → Prop where
  | built {c : IndexConfig} {parts : IndexParts} {now : Instant} {w : CodeIndex}
      (built : build c parts now = .ok w) : Reached w
  | performed {w : CodeIndex} (reached : Reached w) (op : Operation) : Reached (w.perform op)
  | moved {w : CodeIndex} (reached : Reached w) (moves : List Move) :
      Reached ((Session.start w).moveAll moves).index

theorem Reached.numbered {w : CodeIndex} (reached : Reached w) : w.locks.Numbered := by
  induction reached with
  | built built =>
      obtain ⟨-, -, -, -, -, locks, -⟩ := build_ok built
      rw [locks]
      exact nofun
  | performed reached op ih =>
      rcases prune_or_moveAll _ op with rfl | ⟨moves, ran⟩
      · exact PathLocks.prune_numbered ih
      · rw [ran]
        exact ((Session.Orderly.start ih).moveAll moves).numbered
  | moved reached moves ih => exact ((Session.Orderly.start ih).moveAll moves).numbered

/-- Over any index, and whatever the order in which any number of passes are begun and take their
    steps, the latest event for each path wins. -/
theorem latest_wins {w : CodeIndex} (reached : Reached w) (moves : List Move) :
    LatestWins ((Session.start w).moveAll moves) :=
  ((Session.Orderly.start reached.numbered).moveAll moves).latestWins

/-- A change comes in while another one is worked on, and takes over. -/
def overtaking : List Move :=
  .begin (.index (oneFunction "f()")) :: List.replicate 5 (.step 0) ++
    .begin (.index (oneFunction "f(x)")) :: .step 1 :: List.replicate 5 (.step 0) ++
    List.replicate 12 (.step 1)

theorem overtaking_latest_wins : LatestWins ((Session.start smallIndex).moveAll overtaking) :=
  latest_wins (.built build_small) overtaking

end CodeIndex

end CodeSearch
