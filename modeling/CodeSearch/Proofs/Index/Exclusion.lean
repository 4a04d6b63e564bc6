import CodeSearch.Proofs.Index.Locks

/-! # One pass per path

Any number of passes ask for locks, wait for them, take them and give them back, in any order, and
locks are pruned in between. A pass has a reference to its lock from the moment in which it asks for
it, so a pruning finds the lock in use, and whoever asks for the path later gets the same one. This
is true whether those who wait take a lock in the order in which they asked or in any other one.
-/

namespace CodeSearch

/-- What happens next to the locks. -/
inductive LockMove where
  /-- A pass asks for the lock of a path, and waits for it from now on. -/
  | request (path : String) (pass : Nat)
  /-- A pass takes the lock that it waits for, when no other has it. -/
  | take (pass : Nat)
  /-- A pass gives its lock back, or waits for it no more. -/
  | release (pass : Nat)
  | prune
  deriving Repr, DecidableEq, Inhabited

/-- The locks with the passes that use them: each waits for a lock or holds it. -/
structure LockUse where
  locks : PathLocks := {}
  /-- Path and number of the lock that a pass uses. -/
  users : Keyed Nat (String × Nat) := []
  /-- The pass that has taken a lock. -/
  takenBy : Keyed Nat Nat := []

namespace LockUse

/-- A pass uses one lock at a time. -/
def move (u : LockUse) : LockMove → LockUse
  | .request path pass =>
    if Keyed.has u.users pass then u
    else
      { u with
        locks := (u.locks.request path pass).2
        users := Keyed.put u.users pass (path, (u.locks.request path pass).1) }
  | .take pass =>
    match Keyed.get? u.users pass with
    | some (_, number) =>
      if Keyed.has u.takenBy number then u
      else { u with takenBy := Keyed.put u.takenBy number pass }
    | none => u
  | .release pass =>
    match Keyed.get? u.users pass with
    | some (_, number) =>
      { locks := u.locks.release number pass
        users := Keyed.erase u.users pass
        takenBy :=
          if Keyed.get? u.takenBy number = some pass then Keyed.erase u.takenBy number
          else u.takenBy }
    | none => u
  | .prune => { u with locks := u.locks.prune.2 }

/-- The locks after some moves, of which there are none at first. -/
def run (moves : List LockMove) : LockUse :=
  moves.foldl move {}

/-- A pass waits for the lock of a path, or holds it. -/
def Uses (u : LockUse) (pass : Nat) (path : String) (number : Nat) : Prop :=
  Keyed.get? u.users pass = some (path, number)

instance decidableUses (u : LockUse) (pass : Nat) (path : String) (number : Nat) :
    Decidable (u.Uses pass path number) :=
  inferInstanceAs (Decidable (Keyed.get? u.users pass = some (path, number)))

def Holds (u : LockUse) (pass : Nat) (path : String) : Prop :=
  ∃ number, u.Uses pass path number ∧ Keyed.get? u.takenBy number = some pass

/-- The pass that asked first of all that use the lock of a path. Where locks are taken in the order
    in which they were asked for, it is the one that holds the lock. -/
def IsFirst (u : LockUse) (pass : Nat) (path : String) : Prop :=
  ∃ number, u.Uses pass path number ∧ u.locks.holds number pass = true

/-- How many references to a lock there are: one is among the locks of paths, and each pass that
    uses the lock has one. -/
def references (u : LockUse) (number : Nat) : Nat :=
  1 + u.users.countP fun (_, _, used) => used == number

/-- What is true of the locks and of those who use them. -/
structure Sound (u : LockUse) : Prop where
  numbered : u.locks.Numbered
  paths : (Keyed.keys u.locks.numberOf).Nodup
  queues : (Keyed.keys u.locks.queues).Nodup
  users : (Keyed.keys u.users).Nodup
  /-- Two paths have two locks. -/
  apart : ∀ path other number, Keyed.get? u.locks.numberOf path = some number →
    Keyed.get? u.locks.numberOf other = some number → path = other
  /-- A pass stands in the queue of the lock that it uses, which is that of its path. -/
  placed : ∀ pass path number, u.Uses pass path number →
    Keyed.get? u.locks.numberOf path = some number ∧ pass ∈ u.locks.queue number
  /-- Only those who use a lock stand in its queue, and they do so once. -/
  queued : ∀ pass number, pass ∈ u.locks.queue number → ∃ path, u.Uses pass path number
  taken : ∀ pass number, Keyed.get? u.takenBy number = some pass → ∃ path, u.Uses pass path number
  once : ∀ number, (u.locks.queue number).Nodup

section

variable {u : LockUse}

theorem Sound.empty : Sound {} where
  numbered := nofun
  paths := List.nodup_nil
  queues := List.nodup_nil
  users := List.nodup_nil
  apart := nofun
  placed := nofun
  queued := nofun
  taken := nofun
  once _ := List.nodup_nil

/-! ## Asking -/

theorem get?_request (l : PathLocks) (path other : String) (pass : Nat) :
    Keyed.get? (l.request path pass).2.numberOf other =
      if other = path then some (l.request path pass).1 else Keyed.get? l.numberOf other := by
  unfold PathLocks.request
  cases known : Keyed.get? l.numberOf path with
  | some number =>
      simp only
      split
      · rename_i same
        rw [same, known]
      · rfl
  | none => exact Keyed.get?_put ..

/-- The lock that is asked for is that of the path already, or a new one. -/
theorem request_known_or_new (l : PathLocks) (path : String) (pass : Nat) :
    Keyed.get? l.numberOf path = some (l.request path pass).1 ∨
      (l.request path pass).1 = l.nextNumber := by
  unfold PathLocks.request
  cases known : Keyed.get? l.numberOf path with
  | some number => exact .inl rfl
  | none => exact .inr rfl

/-- Nobody stands in the queue of a lock that is still to come. -/
theorem Sound.queue_next (h : Sound u) : u.locks.queue u.locks.nextNumber = [] := by
  refine List.eq_nil_iff_forall_not_mem.mpr fun pass waits => ?_
  obtain ⟨path, uses⟩ := h.queued pass _ waits
  have known := Keyed.mem_of_get? (h.placed pass path _ uses).1
  exact absurd (h.numbered path _ known) (Nat.lt_irrefl _)

theorem Sound.queue_request (h : Sound u) (path : String) (pass number : Nat) :
    (u.locks.request path pass).2.queue number =
      if number = (u.locks.request path pass).1 then u.locks.queue number ++ [pass]
      else u.locks.queue number := by
  unfold PathLocks.request
  cases Keyed.get? u.locks.numberOf path with
  | some asked =>
      simp only [PathLocks.queue_put]
      split
      · rename_i same
        rw [same]
      · rfl
  | none =>
      simp only [PathLocks.queue_put]
      split
      · rename_i same
        rw [same, h.queue_next]
        rfl
      · rfl

theorem Sound.request (h : Sound u) (path : String) (pass : Nat) :
    Sound (u.move (.request path pass)) := by
  by_cases busy : Keyed.has u.users pass = true
  · rw [show u.move (.request path pass) = u from if_pos busy]
    exact h
  have free : Keyed.has u.users pass = false := Bool.eq_false_iff.mpr busy
  have unused (here : String) (number : Nat) : ¬u.Uses pass here number := fun uses =>
    busy (Keyed.has_iff.mpr ⟨_, uses⟩)
  have locks : (u.move (.request path pass)).locks = (u.locks.request path pass).2 := by
    simp [move, free]
  have users : (u.move (.request path pass)).users =
      Keyed.put u.users pass (path, (u.locks.request path pass).1) := by
    simp [move, free]
  have uses (other : Nat) (here : String) (number : Nat) :
      (u.move (.request path pass)).Uses other here number ↔
        if other = pass then path = here ∧ (u.locks.request path pass).1 = number
        else u.Uses other here number := by
    rw [Uses, users, Keyed.get?_put]
    split
    · rw [Option.some.injEq, Prod.mk.injEq]
    · rfl
  have fresh (other : String) (different : other ≠ path) :
      Keyed.get? u.locks.numberOf other ≠ some (u.locks.request path pass).1 := by
    intro known
    rcases request_known_or_new u.locks path pass with old | new
    · exact different (h.apart other path _ known old)
    · exact absurd (h.numbered other _ (Keyed.mem_of_get? known)) (new ▸ Nat.lt_irrefl _)
  constructor
  case numbered => exact locks ▸ PathLocks.request_numbered h.numbered path pass
  case paths =>
    rw [locks, PathLocks.request]
    cases Keyed.get? u.locks.numberOf path with
    | some number => exact h.paths
    | none => exact Keyed.nodup_put h.paths _ _
  case queues =>
    rw [locks, PathLocks.request]
    cases Keyed.get? u.locks.numberOf path with
    | some number => exact Keyed.nodup_put h.queues _ _
    | none => exact Keyed.nodup_put h.queues _ _
  case users => exact users ▸ Keyed.nodup_put h.users _ _
  case apart =>
    intro here there number knownHere knownThere
    rw [locks, get?_request] at knownHere knownThere
    split at knownHere
    · rename_i samePath
      split at knownThere
      · rename_i sameToo
        rw [samePath, sameToo]
      · rename_i different
        exact absurd (knownThere.trans knownHere.symm) (fresh there different)
    · rename_i different
      split at knownThere
      · exact absurd (knownHere.trans knownThere.symm) (fresh here different)
      · exact h.apart here there number knownHere knownThere
  case placed =>
    intro other here number used
    rw [uses] at used
    rw [locks]
    split at used
    · rename_i self
      obtain ⟨rfl, rfl⟩ := used
      exact ⟨PathLocks.request_number u.locks path pass, self ▸ PathLocks.mem_request ..⟩
    · obtain ⟨known, waits⟩ := h.placed other here number used
      refine ⟨PathLocks.request_keeps known path pass, ?_⟩
      rw [h.queue_request]
      split
      · exact List.mem_append_left _ waits
      · exact waits
  case queued =>
    intro other number waits
    simp only [uses]
    rw [locks, h.queue_request] at waits
    by_cases self : other = pass
    · subst self
      split at waits
      · rename_i asked
        exact ⟨path, by simp [asked]⟩
      · obtain ⟨here, used⟩ := h.queued other number waits
        exact absurd used (unused here number)
    · have before : other ∈ u.locks.queue number := by
        split at waits
        · exact (List.mem_append.mp waits).resolve_right fun new =>
            self (List.mem_singleton.mp new)
        · exact waits
      obtain ⟨here, used⟩ := h.queued other number before
      exact ⟨here, by rwa [if_neg self]⟩
  case taken =>
    intro other number holds
    have before : (u.move (.request path pass)).takenBy = u.takenBy := by simp [move, free]
    obtain ⟨here, used⟩ := h.taken other number (before ▸ holds)
    have different : other ≠ pass := fun same => unused here number (same ▸ used)
    exact ⟨here, (uses other here number).mpr (by rwa [if_neg different])⟩
  case once =>
    intro number
    rw [locks, h.queue_request]
    split
    · refine List.nodup_append.mpr ⟨h.once number, List.nodup_singleton pass, ?_⟩
      intro other waits new isNew same
      obtain ⟨here, used⟩ := h.queued other number waits
      rw [same, List.mem_singleton.mp isNew] at used
      exact unused here number used
    · exact h.once number

/-! ## Taking -/

theorem Sound.take (h : Sound u) (pass : Nat) : Sound (u.move (.take pass)) := by
  cases used : Keyed.get? u.users pass with
  | none =>
      have still : u.move (.take pass) = u := by simp only [LockUse.move, used]
      exact still.symm ▸ h
  | some own =>
      obtain ⟨path, number⟩ := own
      simp only [LockUse.move, used]
      split
      · exact h
      · refine { h with taken := fun other n holds => ?_ }
        rw [Keyed.get?_put] at holds
        split at holds
        · rename_i same
          cases holds
          exact ⟨path, same ▸ used⟩
        · exact h.taken other n holds

/-! ## Giving back -/

theorem Sound.release (h : Sound u) (pass : Nat) : Sound (u.move (.release pass)) := by
  cases used : Keyed.get? u.users pass with
  | none =>
      have still : u.move (.release pass) = u := by simp only [move, used]
      exact still.symm ▸ h
  | some own =>
      obtain ⟨path, given⟩ := own
      have moved : u.move (.release pass) =
          { locks := u.locks.release given pass
            users := Keyed.erase u.users pass
            takenBy :=
              if Keyed.get? u.takenBy given = some pass then Keyed.erase u.takenBy given
              else u.takenBy } := by
        simp only [move, used]
      have uses (other : Nat) (here : String) (number : Nat) :
          (u.move (.release pass)).Uses other here number ↔
            other ≠ pass ∧ u.Uses other here number := by
        rw [Uses, moved, Keyed.get?_erase]
        by_cases self : other = pass
        · simp [self]
        · simp [self, Uses]
      have queue (number : Nat) : (u.move (.release pass)).locks.queue number =
          if number = given then (u.locks.queue number).erase pass else u.locks.queue number := by
        rw [moved, PathLocks.release, PathLocks.queue_put]
        split
        · rename_i same
          rw [same]
        · rfl
      have waits (other number : Nat) : other ∈ (u.move (.release pass)).locks.queue number ↔
          other ≠ pass ∧ other ∈ u.locks.queue number := by
        rw [queue]
        split
        · rw [(h.once number).mem_erase_iff]
        · rename_i different
          refine ⟨fun stands => ⟨?_, stands⟩, And.right⟩
          rintro rfl
          obtain ⟨here, usesToo⟩ := h.queued other number stands
          rw [Uses, used] at usesToo
          cases usesToo
          exact different rfl
      have numberOf : (u.move (.release pass)).locks.numberOf = u.locks.numberOf := by
        rw [moved]
        rfl
      constructor
      case numbered =>
        exact fun here number known => moved ▸ h.numbered here number (numberOf ▸ known)
      case paths => exact numberOf ▸ h.paths
      case queues => exact moved ▸ Keyed.nodup_put h.queues _ _
      case users => exact moved ▸ Keyed.nodup_erase h.users pass
      case apart => exact numberOf ▸ h.apart
      case placed =>
        intro other here number usesToo
        obtain ⟨different, before⟩ := (uses other here number).mp usesToo
        obtain ⟨known, stands⟩ := h.placed other here number before
        exact ⟨numberOf ▸ known, (waits other number).mpr ⟨different, stands⟩⟩
      case queued =>
        intro other number stands
        obtain ⟨different, before⟩ := (waits other number).mp stands
        obtain ⟨here, usesToo⟩ := h.queued other number before
        exact ⟨here, (uses other here number).mpr ⟨different, usesToo⟩⟩
      case taken =>
        intro other number holds
        -- What another has taken is still taken, and what this pass had is free.
        have before : Keyed.get? u.takenBy number = some other ∧
            (other = pass → number ≠ given) := by
          rw [moved] at holds
          dsimp only at holds
          split at holds
          · rw [Keyed.get?_erase] at holds
            split at holds
            · cases holds
            · exact ⟨holds, fun _ => ‹_›⟩
          · rename_i notThis
            exact ⟨holds, fun same here => notThis (by rw [← same, ← here, holds])⟩
        obtain ⟨here, usesToo⟩ := h.taken other number before.1
        have different : other ≠ pass := by
          rintro rfl
          rw [Uses, used] at usesToo
          cases usesToo
          exact before.2 rfl rfl
        exact ⟨here, (uses other here number).mpr ⟨different, usesToo⟩⟩
      case once =>
        intro number
        rw [queue]
        split
        · exact (h.once number).erase pass
        · exact h.once number

/-! ## Pruning -/

/-- Pruning changes no queue: those that are dropped are empty. -/
theorem Sound.queue_prune (h : Sound u) (number : Nat) :
    u.locks.prune.2.queue number = u.locks.queue number := by
  cases standing : u.locks.queue number with
  | cons first rest =>
      exact (PathLocks.prune_queue (standing ▸ List.mem_cons_self)).trans standing
  | nil =>
      rw [PathLocks.queue]
      cases found : Keyed.get? u.locks.prune.2.queues number with
      | none => rfl
      | some passes =>
          have before := ((Keyed.get?_filter_iff h.queues _).mp found).1
          rw [PathLocks.queue, before] at standing
          exact standing

theorem Sound.get?_prune (h : Sound u) {path : String} {number : Nat} :
    Keyed.get? u.locks.prune.2.numberOf path = some number ↔
      Keyed.get? u.locks.numberOf path = some number ∧ u.locks.queue number ≠ [] := by
  refine (Keyed.get?_filter_iff h.paths _).trans (and_congr_right fun _ => ?_)
  rw [Bool.not_eq_true', List.isEmpty_eq_false_iff]

theorem Sound.prune (h : Sound u) : Sound (u.move .prune) where
  numbered := PathLocks.prune_numbered h.numbered
  paths := Keyed.nodup_filter h.paths _
  queues := Keyed.nodup_filter h.queues _
  users := h.users
  apart here there number knownHere knownThere :=
    h.apart here there number (h.get?_prune.mp knownHere).1 (h.get?_prune.mp knownThere).1
  placed pass path number uses := by
    obtain ⟨known, waits⟩ := h.placed pass path number uses
    exact ⟨h.get?_prune.mpr ⟨known, List.ne_nil_of_mem waits⟩, h.queue_prune number ▸ waits⟩
  queued pass number waits := h.queued pass number (h.queue_prune number ▸ waits)
  taken := h.taken
  once number := h.queue_prune number ▸ h.once number

/-! ## Runs -/

theorem Sound.move (h : Sound u) (m : LockMove) : Sound (u.move m) := by
  cases m with
  | request path pass => exact h.request path pass
  | take pass => exact h.take pass
  | release pass => exact h.release pass
  | prune => exact h.prune

theorem sound_run (moves : List LockMove) : Sound (run moves) :=
  List.foldlRecOn (motive := Sound) moves _ .empty fun _ h m _ => h.move m

/-- Those who use the lock of a path use one lock. -/
theorem Sound.same_lock (h : Sound u) {path : String} {p q m n : Nat} (usesP : u.Uses p path m)
    (usesQ : u.Uses q path n) : m = n := by
  have known := (h.placed p path m usesP).1
  rw [(h.placed q path n usesQ).1] at known
  exact (Option.some.inj known).symm

theorem Sound.one_holder (h : Sound u) {path : String} {p q : Nat} (holdsP : u.Holds p path)
    (holdsQ : u.Holds q path) : p = q := by
  obtain ⟨m, usesP, takenP⟩ := holdsP
  obtain ⟨n, usesQ, takenQ⟩ := holdsQ
  cases h.same_lock usesP usesQ
  rw [takenP] at takenQ
  exact Option.some.inj takenQ

theorem Sound.one_first (h : Sound u) {path : String} {p q : Nat} (firstP : u.IsFirst p path)
    (firstQ : u.IsFirst q path) : p = q := by
  obtain ⟨m, usesP, headP⟩ := firstP
  obtain ⟨n, usesQ, headQ⟩ := firstQ
  cases h.same_lock usesP usesQ
  exact PathLocks.holds_unique headP headQ

/-- There is more than one reference to a lock when somebody stands in its queue. -/
theorem Sound.referred (h : Sound u) (number : Nat) :
    1 < u.references number ↔ u.locks.queue number ≠ [] := by
  rw [references, Nat.lt_add_right_iff_pos, List.countP_pos_iff]
  constructor
  · rintro ⟨⟨pass, path, used⟩, listed, same⟩
    cases beq_iff_eq.mp same
    exact List.ne_nil_of_mem (h.placed pass path _ (Keyed.get?_of_mem h.users listed)).2
  · intro standing
    obtain ⟨pass, waits⟩ := List.exists_mem_of_ne_nil _ standing
    obtain ⟨path, uses⟩ := h.queued pass number waits
    exact ⟨_, Keyed.mem_of_get? uses, beq_self_eq_true number⟩

end

/-- Whatever passes ask for, take and give back, and however often locks are pruned, all who use the
    lock of a path use one lock, and one of them at most holds it. A pruning leaves that lock to the
    path, with all who stand in its queue; it drops exactly the locks with a single reference. -/
theorem one_pass_per_path (moves : List LockMove) (path : String) :
    (∀ p q, (run moves).Holds p path → (run moves).Holds q path → p = q) ∧
      (∀ p q, (run moves).IsFirst p path → (run moves).IsFirst q path → p = q) ∧
      (∀ p q m n, (run moves).Uses p path m → (run moves).Uses q path n → m = n) ∧
      (∀ p number, (run moves).Uses p path number →
        Keyed.get? (run moves).locks.prune.2.numberOf path = some number ∧
        (run moves).locks.prune.2.queue number = (run moves).locks.queue number) ∧
      ∀ number, Keyed.get? (run moves).locks.prune.2.numberOf path = some number ↔
        Keyed.get? (run moves).locks.numberOf path = some number ∧
          1 < (run moves).references number := by
  have sound := sound_run moves
  refine ⟨fun p q => sound.one_holder, fun p q => sound.one_first, fun p q m n => sound.same_lock,
    fun p number uses => ?_, fun number => ?_⟩
  · obtain ⟨known, waits⟩ := sound.placed p path number uses
    exact ⟨sound.get?_prune.mpr ⟨known, List.ne_nil_of_mem waits⟩, sound.queue_prune number⟩
  · rw [sound.get?_prune, sound.referred]

/-- While three passes use the lock of one path, the lock of another path is given back and dropped.
    The pass that asked after the pruning is the first to take the lock; the others still wait. -/
def crowded : List LockMove :=
  [.request "a.py" 0, .request "b.py" 1, .take 1, .request "a.py" 2, .release 1, .prune,
    .request "a.py" 3, .take 3, .take 0, .take 2]

theorem crowded_one_pass :
    (run crowded).Uses 0 "a.py" 0 ∧ (run crowded).Uses 3 "a.py" 0 ∧ (run crowded).Holds 3 "a.py" ∧
      (∀ q, (run crowded).Holds q "a.py" → q = 3) ∧
      Keyed.get? (run crowded).locks.prune.2.numberOf "a.py" = some 0 ∧
      (run crowded).locks.prune.2.queue 0 = [0, 2, 3] ∧
      Keyed.get? (run crowded).locks.numberOf "b.py" = none := by
  obtain ⟨oneHolder, -, -, survives, -⟩ := one_pass_per_path crowded "a.py"
  have holds : (run crowded).Holds 3 "a.py" := ⟨0, by decide, by decide⟩
  obtain ⟨kept, queue⟩ := survives 2 0 (by decide)
  exact ⟨by decide, by decide, holds, fun q holdsToo => oneHolder q 3 holdsToo holds, kept,
    queue.trans (by decide), by decide⟩

end LockUse

end CodeSearch
