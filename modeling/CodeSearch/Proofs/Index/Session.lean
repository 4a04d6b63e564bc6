import CodeSearch.Proofs.Index.Locks
import CodeSearch.Proofs.Index.Run
import CodeSearch.Proofs.Index.Step

/-! # Sessions

In a session any number of passes go on over one index. Each move begins a pass, takes one step of
a pass, or changes what is around the index. Whatever the order of the moves, what a pass has
settled holds until a later event for its path takes effect.
-/

namespace CodeSearch

open Time (Instant)

/-- Neither a pass nor a pruning. -/
def Operation.Aside : Operation → Prop
  | .feedback _ _ | .clock _ | .provider _ | .outage _ => True
  | .index _ | .remove _ | .prune => False

/-- An index with the passes over it, of which any number may be on their way. -/
structure Session where
  index : CodeIndex
  /-- Every pass under its number, with what it was asked. -/
  passes : Keyed Nat (Request × Pass) := []
  /-- Path and generation of each commit and removal, in the order in which they took effect. -/
  effects : List (String × Nat) := []

/-- What can happen next in a session. -/
inductive Move where
  | begin (request : Request)
  /-- The pass of a number takes one step, if there is one. -/
  | step (number : Nat)
  | feedback (id : SymbolId) (signal : Signal)
  | clock (now : Instant)
  | provider (embedder : Embedder)
  | outage (write : Nat)
  deriving Inhabited

namespace Session

def begin (s : Session) (request : Request) : Session :=
  let (index, p) := Pass.start s.index request
  { s with index, passes := Keyed.put s.passes p.number (request, p) }

/-- The session after a step of a pass. -/
def advanced (s : Session) (request : Request) (p : Pass) (taken : CodeIndex × Pass) : Session :=
  { index := taken.1
    passes := Keyed.put s.passes p.number (request, taken.2)
    effects :=
      if p.phase.takesEffect taken.2.phase then s.effects ++ [(p.path, p.generation)]
      else s.effects }

def step (s : Session) (number : Nat) : Session :=
  match Keyed.get? s.passes number with
  | some (request, p) => s.advanced request p (p.step s.index)
  | none => s

/-- The session after something that is not done by a pass. -/
def around (s : Session) (op : Operation) : Session :=
  { s with index := s.index.perform op }

def move (s : Session) : Move → Session
  | .begin request => s.begin request
  | .step number => s.step number
  | .feedback id signal => s.around (.feedback id signal)
  | .clock now => s.around (.clock now)
  | .provider embedder => s.around (.provider embedder)
  | .outage write => s.around (.outage write)

/-- The session with an index and no passes yet. -/
def start (w : CodeIndex) : Session :=
  { index := w }

def moveAll (s : Session) (moves : List Move) : Session :=
  moves.foldl move s

/-- A pass that was begun in a session, with what it was asked. -/
def Has (s : Session) (number : Nat) (request : Request) (p : Pass) : Prop :=
  Keyed.get? s.passes number = some (request, p)

/-- No pass over the same path was begun later. -/
def IsLast (s : Session) (p : Pass) : Prop :=
  ∀ number request q, s.Has number request q → q.path = p.path → q.generation ≤ p.generation

end Session

/-! ## What is true of each pass -/

/-- The pass has the lock of its path, and has not ended. -/
def Pass.Active (p : Pass) : Prop :=
  p.phase.role = .working ∨ ∃ outcome, p.phase.role = .settled outcome

/-- What the pass reports is settled. -/
def Pass.Past (p : Pass) : Prop :=
  (∃ outcome, p.phase.role = .settled outcome) ∨ ∃ result, p.phase.role = .ended result

/-- A later event for the path took effect. -/
def Pass.Overtaken (p : Pass) (effects : List (String × Nat)) : Prop :=
  ∃ generation, (p.path, generation) ∈ effects ∧ p.generation < generation

section

variable (w : CodeIndex) (effects : List (String × Nat)) (request : Request) (p : Pass)

/-- What a pass reports is true, unless a later event took effect. -/
def Pass.Reports (outcome : PassOutcome) : Prop :=
  outcome ≠ .superseded ∧
    (outcome.Holds w.registered request w.state ∨ p.Overtaken effects)

/-- A later event for the path came in. -/
def Pass.Late : Prop :=
  ∃ generation, w.files.generation? p.path = some generation ∧ p.generation < generation

/-- What is known of a pass by its role. -/
def Pass.Told : Role → Prop
  | .early | .working => True
  | .settled outcome => p.Reports w effects request outcome
  | .ended (.ok ack) =>
    ack.outcome = .superseded ∧ p.Late w ∨ p.Reports w effects request ack.outcome
  | .ended (.error _) => True

structure Pass.Standing : Prop where
  path : p.path = request.path
  asked : p.phase.Asked w.registered request
  /-- The lock that it asked for is that of its path. -/
  lock : ∀ number, p.lock = some number → Keyed.get? w.locks.numberOf p.path = some number
  holds : p.Active → p.holdsLock w = true
  told : p.Told w effects request p.phase.role

end

/-- What is true of all passes of a session together. -/
structure Session.Orderly (s : Session) : Prop where
  own : ∀ number request p, s.Has number request p → p.number = number ∧ number < s.index.passes
  standing : ∀ number request p, s.Has number request p → p.Standing s.index s.effects request
  /-- The table knows the latest pass of each path. -/
  latest : ∀ number request p, s.Has number request p →
    ∃ other request' q, s.Has other request' q ∧ q.path = p.path ∧
      s.index.files.generation? p.path = some q.generation ∧ p.generation ≤ q.generation
  distinct : ∀ m n request request' p q, s.Has m request p → s.Has n request' q →
    p.path = q.path → p.generation = q.generation → m = n
  /-- Beside a pass that has the path, all others wait or came before. -/
  alone : ∀ m n request request' p q, s.Has m request p → s.Has n request' q → m ≠ n →
    p.path = q.path → q.Active → p.phase.role = .early ∨ p.generation < q.generation
  numbered : s.index.locks.Numbered
  ordered : s.effects.Pairwise fun a b => a.1 = b.1 → a.2 < b.2
  /-- Every effect is that of a pass, which has settled. -/
  caused : ∀ path generation, (path, generation) ∈ s.effects →
    ∃ number request p, s.Has number request p ∧ p.path = path ∧ p.generation = generation ∧ p.Past

/-- Every pass stands under its own number, over the path that it was asked for, and has at hand
    what was asked. -/
structure Session.Answering (s : Session) : Prop where
  own : ∀ number request p, s.Has number request p → p.number = number ∧ number < s.index.passes
  path : ∀ number request p, s.Has number request p → p.path = request.path
  asked : ∀ number request p, s.Has number request p → p.phase.Asked s.index.registered request

/-! ## What others do leaves a pass as it is -/

section

variable {w after : CodeIndex} {effects more : List (String × Nat)} {request : Request} {p : Pass}

theorem Pass.Active.role (active : p.Active) :
    p.phase.role ≠ .early ∧ ∀ result, p.phase.role ≠ .ended result := by
  rcases active with working | ⟨outcome, settled⟩
  · rw [working]
    exact ⟨nofun, nofun⟩
  · rw [settled]
    exact ⟨nofun, nofun⟩

theorem Pass.Past.role (past : p.Past) : p.phase.role ≠ .early ∧ p.phase.role ≠ .working := by
  rcases past with ⟨outcome, settled⟩ | ⟨result, ended⟩
  · rw [settled]
    exact ⟨nofun, nofun⟩
  · rw [ended]
    exact ⟨nofun, nofun⟩

theorem PassOutcome.Holds.carry {s t : IndexState} {registered : List Language}
    {outcome : PassOutcome} (same : t.unit? request.path = s.unit? request.path)
    (h : outcome.Holds registered request s) : outcome.Holds registered request t := by
  have serves (served : ∃ change, request = .index change ∧ s.Serves registered change) :
      ∃ change, request = .index change ∧ t.Serves registered change := by
    obtain ⟨change, rfl, entry, held, content⟩ := served
    exact ⟨change, rfl, entry, same.trans held, content⟩
  cases outcome with
  | indexed | unchanged => exact serves h
  | removed | notIndexed => exact same.trans h
  | superseded => exact h

theorem Pass.Reports.carry {outcome : PassOutcome} (h : p.Reports w effects request outcome)
    (registered : after.registered = w.registered) (grown : effects ⊆ more)
    (unit : after.state.unit? request.path = w.state.unit? request.path ∨ p.Overtaken more) :
    p.Reports after more request outcome := by
  obtain ⟨other, holds | ⟨generation, inside, later⟩⟩ := h
  · rcases unit with same | overtaken
    · exact ⟨other, .inl (registered ▸ holds.carry same)⟩
    · exact ⟨other, .inr overtaken⟩
  · exact ⟨other, .inr ⟨generation, grown inside, later⟩⟩

theorem Pass.Late.carry (h : p.Late w)
    (events : ∀ generation, w.files.generation? p.path = some generation →
      ∃ later, after.files.generation? p.path = some later ∧ generation ≤ later) : p.Late after := by
  obtain ⟨generation, known, less⟩ := h
  obtain ⟨later, knownAfter, grown⟩ := events generation known
  exact ⟨later, knownAfter, Nat.lt_of_lt_of_le less grown⟩

/-- A pass stands where it stood when the index keeps its lock, forgets no event, and changes its
    path only by a later effect. -/
theorem Pass.Standing.carry (h : p.Standing w effects request)
    (registered : after.registered = w.registered)
    (keeps : ∀ number, Keyed.get? w.locks.numberOf p.path = some number →
      Keyed.get? after.locks.numberOf p.path = some number)
    (holds : p.holdsLock w = true → p.holdsLock after = true)
    (events : ∀ generation, w.files.generation? p.path = some generation →
      ∃ later, after.files.generation? p.path = some later ∧ generation ≤ later)
    (grown : effects ⊆ more)
    (unit : p.phase.role ≠ .early → after.state.unit? p.path = w.state.unit? p.path ∨
      p.Overtaken more) : p.Standing after more request := by
  rw [h.path] at unit
  constructor
  case path => exact h.path
  case asked => exact registered ▸ h.asked
  case lock => exact fun number locked => keeps number (h.lock number locked)
  case holds => exact fun active => holds (h.holds active)
  case told =>
    have told := h.told
    cases role : p.phase.role with
    | early | working => trivial
    | settled outcome =>
        rw [role] at told unit
        exact told.carry registered grown (unit fun same => by cases same)
    | ended result =>
        rw [role] at told unit
        cases result with
        | error cause => trivial
        | ok ack =>
            rcases told with ⟨superseded, late⟩ | reports
            · exact .inl ⟨superseded, late.carry events⟩
            · exact .inr (reports.carry registered grown (unit fun same => by cases same))

theorem Pass.holdsLock_iff : p.holdsLock w = true ↔
    ∃ number, p.lock = some number ∧ w.locks.holds number p.number = true := by
  unfold Pass.holdsLock
  cases p.lock with
  | none => simp
  | some number => simp

/-- Two passes over a path that hold its lock are one pass. -/
theorem Pass.holder_unique {q : Pass} (path : p.path = q.path)
    (lockP : ∀ number, p.lock = some number → Keyed.get? w.locks.numberOf p.path = some number)
    (lockQ : ∀ number, q.lock = some number → Keyed.get? w.locks.numberOf q.path = some number)
    (holdsP : p.holdsLock w = true) (holdsQ : q.holdsLock w = true) : p.number = q.number := by
  obtain ⟨m, askedP, headP⟩ := Pass.holdsLock_iff.mp holdsP
  obtain ⟨n, askedQ, headQ⟩ := Pass.holdsLock_iff.mp holdsQ
  have knownP := lockP m askedP
  have knownQ := lockQ n askedQ
  rw [path, knownQ] at knownP
  cases knownP
  exact PathLocks.holds_unique headP headQ

end

/-! ## Beginning a pass -/

namespace Session

variable {s : Session}

theorem has_begin (s : Session) (request : Request) {number : Nat} {r : Request} {p : Pass}
    (h : (s.begin request).Has number r p) :
    number = s.index.passes ∧ request = r ∧ p = (Pass.start s.index request).2 ∨
      number ≠ s.index.passes ∧ s.Has number r p := by
  have put : Keyed.get? (Keyed.put s.passes s.index.passes (request, (Pass.start s.index request).2))
      number = some (r, p) := h
  rw [Keyed.get?_put] at put
  split at put
  · rename_i same
    cases put
    exact .inl ⟨same, rfl, rfl⟩
  · rename_i different
    exact .inr ⟨different, put⟩

theorem begin_has_new (s : Session) (request : Request) :
    (s.begin request).Has s.index.passes request (Pass.start s.index request).2 :=
  Keyed.get?_put_self ..

theorem Orderly.answering (h : Orderly s) : Answering s :=
  ⟨h.own, fun number request p held => (h.standing number request p held).path,
    fun number request p held => (h.standing number request p held).asked⟩

theorem Answering.start (w : CodeIndex) : Answering (start w) :=
  ⟨fun _ _ _ held => (nomatch held), fun _ _ _ held => (nomatch held),
    fun _ _ _ held => (nomatch held)⟩

theorem Answering.begin (h : Answering s) (request : Request) : Answering (s.begin request) := by
  constructor
  case own =>
    intro number r p held
    rcases s.has_begin request held with ⟨rfl, rfl, rfl⟩ | ⟨-, old⟩
    · exact ⟨rfl, Nat.lt_succ_self _⟩
    · obtain ⟨own, below⟩ := h.own number r p old
      exact ⟨own, Nat.lt_succ_of_lt below⟩
  case path =>
    intro number r p held
    rcases s.has_begin request held with ⟨-, rfl, rfl⟩ | ⟨-, old⟩
    · rfl
    · exact h.path number r p old
  case asked =>
    intro number r p held
    rcases s.has_begin request held with ⟨-, rfl, rfl⟩ | ⟨-, old⟩
    · rfl
    · exact h.asked number r p old

/-- What passes answer does not depend on anything of the index but its languages. -/
theorem Answering.beside (h : Answering s) {after : CodeIndex}
    (registered : after.registered = s.index.registered) (passes : after.passes = s.index.passes) :
    Answering { s with index := after } :=
  ⟨fun number r p held => passes.symm ▸ h.own number r p held, h.path,
    fun number r p held => registered.symm ▸ h.asked number r p held⟩

theorem Answering.begin_has (h : Answering s) (request : Request) {number : Nat} {r : Request}
    {p : Pass} (held : s.Has number r p) : (s.begin request).Has number r p := by
  have older : number ≠ s.index.passes := Nat.ne_of_lt (h.own number r p held).2
  exact (Keyed.get?_put_of_ne _ _ older).trans held

theorem begin_events (s : Session) (request : Request) (path : String) :
    (s.begin request).index.files.generation? path =
      if path = request.path then some (Pass.start s.index request).2.generation
      else s.index.files.generation? path :=
  FileTable.generation?_begin s.index.files request.path path

/-- A new pass comes after all others over its path. -/
theorem Orderly.lt_start (h : Orderly s) {request : Request} {number : Nat} {r : Request} {p : Pass}
    (held : s.Has number r p) (path : p.path = request.path) :
    p.generation < (Pass.start s.index request).2.generation := by
  obtain ⟨other, request', q, heldQ, pathQ, known, before⟩ := h.latest number r p held
  rw [path] at known
  exact Nat.lt_of_le_of_lt before (FileTable.lt_begin known)

theorem Orderly.start {w : CodeIndex} (numbered : w.locks.Numbered) : Orderly (start w) := by
  have none (number : Nat) (request : Request) (p : Pass) : ¬(Session.start w).Has number request p :=
    nofun
  constructor
  case own => exact fun number request p held => absurd held (none number request p)
  case standing => exact fun number request p held => absurd held (none number request p)
  case latest => exact fun number request p held => absurd held (none number request p)
  case distinct => exact fun m n r r' p q held => absurd held (none m r p)
  case alone => exact fun m n r r' p q held => absurd held (none m r p)
  case numbered => exact numbered
  case ordered => exact List.Pairwise.nil
  case caused => exact fun path generation inside => absurd inside List.not_mem_nil

theorem Orderly.begin (h : Orderly s) (request : Request) : Orderly (s.begin request) := by
  constructor
  case own => exact (h.answering.begin request).own
  case standing =>
    intro number r p held
    rcases s.has_begin request held with ⟨rfl, rfl, rfl⟩ | ⟨-, old⟩
    · exact ⟨rfl, rfl, nofun, fun active => absurd rfl active.role.1, trivial⟩
    · refine (h.standing number r p old).carry rfl (fun _ known => known) id ?_
        (List.Subset.refl _) fun _ => .inl rfl
      intro generation known
      rw [begin_events]
      split
      · rename_i here
        refine ⟨_, rfl, Nat.le_of_lt ?_⟩
        rw [here] at known
        exact FileTable.lt_begin known
      · exact ⟨generation, known, Nat.le_refl _⟩
  case latest =>
    intro number r p held
    rcases s.has_begin request held with ⟨rfl, rfl, rfl⟩ | ⟨-, old⟩
    · refine ⟨_, _, _, s.begin_has_new request, rfl, ?_, Nat.le_refl _⟩
      rw [begin_events]
      exact if_pos rfl
    · by_cases here : p.path = request.path
      · refine ⟨_, _, _, s.begin_has_new request, here.symm, ?_, Nat.le_of_lt (h.lt_start old here)⟩
        rw [begin_events, if_pos here]
      · obtain ⟨other, r', q, heldQ, pathQ, known, before⟩ := h.latest number r p old
        refine ⟨other, r', q, h.answering.begin_has request heldQ, pathQ, ?_, before⟩
        rw [begin_events, if_neg here, known]
  case distinct =>
    intro m n r r' p q heldP heldQ path generation
    rcases s.has_begin request heldP with ⟨rfl, rfl, rfl⟩ | ⟨-, oldP⟩
    · rcases s.has_begin request heldQ with ⟨rfl, rfl, rfl⟩ | ⟨-, oldQ⟩
      · rfl
      · exact absurd generation (Nat.ne_of_gt (h.lt_start oldQ path.symm))
    · rcases s.has_begin request heldQ with ⟨rfl, rfl, rfl⟩ | ⟨-, oldQ⟩
      · exact absurd generation (Nat.ne_of_lt (h.lt_start oldP path))
      · exact h.distinct m n r r' p q oldP oldQ path generation
  case alone =>
    intro m n r r' p q heldP heldQ different path active
    -- an event that only comes in takes the path from nobody
    rcases s.has_begin request heldP with ⟨rfl, rfl, rfl⟩ | ⟨-, oldP⟩
    · exact .inl rfl
    · rcases s.has_begin request heldQ with ⟨rfl, rfl, rfl⟩ | ⟨-, oldQ⟩
      · exact absurd rfl active.role.1
      · exact h.alone m n r r' p q oldP oldQ different path active
  case numbered => exact h.numbered
  case ordered => exact h.ordered
  case caused =>
    intro path generation inside
    obtain ⟨number, r, p, held, past⟩ := h.caused path generation inside
    exact ⟨number, r, p, h.answering.begin_has request held, past⟩

/-! ## What happens around the passes -/

theorem around_quiet (path : String) (w : CodeIndex) {op : Operation} (aside : op.Aside) :
    Quiet path w (w.perform op) := by
  cases op with
  | index | remove | prune => cases aside
  | feedback id signal =>
      obtain ⟨feedback, after⟩ := w.perform_feedback id signal
      rw [after]
      exact ⟨⟨rfl, rfl, rfl, fun _ => rfl, fun _ _ => rfl⟩, rfl⟩
  | clock | provider | outage => exact ⟨⟨rfl, rfl, rfl, fun _ => rfl, fun _ _ => rfl⟩, rfl⟩

theorem around_files (s : Session) {op : Operation} (aside : op.Aside) :
    (s.around op).index.files = s.index.files := by
  cases op with
  | index | remove | prune => cases aside
  | feedback id signal =>
      obtain ⟨feedback, after⟩ := s.index.perform_feedback id signal
      rw [around, after]
  | clock | provider | outage => rfl

/-- A move is an event, a step of a pass, or is made beside the passes. -/
theorem begin_or_step_or_around (s : Session) (m : Move) :
    (∃ request, m = .begin request) ∨ (∃ number, m = .step number) ∨
      ∃ op : Operation, op.Aside ∧ s.move m = s.around op := by
  cases m with
  | begin request => exact .inl ⟨request, rfl⟩
  | step number => exact .inr (.inl ⟨number, rfl⟩)
  | feedback id signal => exact .inr (.inr ⟨.feedback id signal, trivial, rfl⟩)
  | clock now => exact .inr (.inr ⟨.clock now, trivial, rfl⟩)
  | provider embedder => exact .inr (.inr ⟨.provider embedder, trivial, rfl⟩)
  | outage write => exact .inr (.inr ⟨.outage write, trivial, rfl⟩)

/-- What does not disturb any path leaves a session in order. -/
theorem Orderly.quiet (h : Orderly s) {after : CodeIndex} (quiet : ∀ path, Quiet path s.index after) :
    Orderly { s with index := after } := by
  have any := quiet ""
  constructor
  case own => exact (h.answering.beside any.registered any.passes).own
  case standing =>
    intro number r p held
    refine (h.standing number r p held).carry any.registered ?_ ?_ ?_ (List.Subset.refl _)
      fun _ => .inl (quiet p.path).unit
    · exact fun number known => any.locks.symm ▸ known
    · intro holds
      rw [Pass.holdsLock, any.locks]
      exact holds
    · exact fun generation known => ⟨generation, (any.events p.path).trans known, Nat.le_refl _⟩
  case latest =>
    intro number r p held
    obtain ⟨other, r', q, heldQ, path, known, before⟩ := h.latest number r p held
    exact ⟨other, r', q, heldQ, path, (any.events p.path).trans known, before⟩
  case distinct => exact h.distinct
  case alone => exact h.alone
  case numbered => exact any.locks.symm ▸ h.numbered
  case ordered => exact h.ordered
  case caused => exact h.caused

end Session

end CodeSearch
