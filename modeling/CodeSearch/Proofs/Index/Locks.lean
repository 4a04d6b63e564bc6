import CodeSearch.Index.Locks
import CodeSearch.Proofs.Keyed

/-! # Laws of locks

A path keeps its lock, and a lock keeps its holder, whoever else asks for locks or gives them back.
Two passes that hold one lock are one pass.
-/

namespace CodeSearch.PathLocks

/-- No lock has a number that is still to be given. -/
def Numbered (l : PathLocks) : Prop :=
  ∀ path number, (path, number) ∈ l.numberOf → number < l.nextNumber

theorem holds_iff {l : PathLocks} {number pass : Nat} :
    l.holds number pass = true ↔ (l.queue number).head? = some pass := by
  unfold holds
  exact beq_iff_eq

theorem holds_unique {l : PathLocks} {number p q : Nat} (hp : l.holds number p = true)
    (hq : l.holds number q = true) : p = q := by
  rw [holds_iff] at hp hq
  rw [hp] at hq
  exact Option.some.inj hq

theorem queue_put (l : PathLocks) (numberOf : Keyed String Nat) (nextNumber number other : Nat)
    (passes : List Nat) :
    queue { numberOf, queues := Keyed.put l.queues number passes, nextNumber } other =
      if other = number then passes else l.queue other := by
  rw [queue, Keyed.get?_put]
  split
  · rfl
  · rfl

/-! ## Asking for a lock -/

theorem request_number (l : PathLocks) (path : String) (pass : Nat) :
    Keyed.get? (l.request path pass).2.numberOf path = some (l.request path pass).1 := by
  unfold request
  cases known : Keyed.get? l.numberOf path with
  | some number => exact known
  | none =>
      simp only [Keyed.get?_put, if_true]

/-- A path that has a lock keeps it. -/
theorem request_keeps {l : PathLocks} {other : String} {number : Nat}
    (known : Keyed.get? l.numberOf other = some number) (path : String) (pass : Nat) :
    Keyed.get? (l.request path pass).2.numberOf other = some number := by
  unfold request
  cases here : Keyed.get? l.numberOf path with
  | some _ => exact known
  | none =>
      simp only [Keyed.get?_put]
      split
      · rename_i same
        rw [same, here] at known
        cases known
      · exact known

theorem request_numbered {l : PathLocks} (h : l.Numbered) (path : String) (pass : Nat) :
    (l.request path pass).2.Numbered := by
  unfold request
  cases Keyed.get? l.numberOf path with
  | some _ => exact h
  | none =>
      intro other number known
      rcases Keyed.mem_put known with old | same
      · exact Nat.lt_succ_of_lt (h other number old)
      · cases same
        exact Nat.lt_succ_self _

/-- Those who ask for a lock line up behind all others. -/
theorem request_queue {l : PathLocks} (numbered : l.Numbered) {other : String} {number : Nat}
    (known : Keyed.get? l.numberOf other = some number) (path : String) (pass : Nat) :
    ∃ more, (l.request path pass).2.queue number = l.queue number ++ more := by
  unfold request
  cases here : Keyed.get? l.numberOf path with
  | some asked =>
      simp only [queue_put]
      split
      · rename_i same
        exact ⟨[pass], by rw [same]⟩
      · exact ⟨[], (List.append_nil _).symm⟩
  | none =>
      have older : number ≠ l.nextNumber :=
        Nat.ne_of_lt (numbered other number (Keyed.mem_of_get? known))
      simp only [queue_put, if_neg older]
      exact ⟨[], (List.append_nil _).symm⟩

/-- Whoever asks for a lock is in its queue. -/
theorem mem_request (l : PathLocks) (path : String) (pass : Nat) :
    pass ∈ (l.request path pass).2.queue (l.request path pass).1 := by
  unfold request
  cases Keyed.get? l.numberOf path with
  | some asked =>
      simp only [queue_put, if_true]
      exact List.mem_append_right _ (List.mem_singleton_self pass)
  | none =>
      simp only [queue_put, if_true]
      exact List.mem_singleton_self pass

/-- Whoever holds the lock of a path goes on to hold it when others ask for locks. -/
theorem request_holds {l : PathLocks} (numbered : l.Numbered) {other : String} {number holder : Nat}
    (known : Keyed.get? l.numberOf other = some number) (holds : l.holds number holder = true)
    (path : String) (pass : Nat) : (l.request path pass).2.holds number holder = true := by
  obtain ⟨more, queue⟩ := request_queue numbered known path pass
  rw [holds_iff] at holds ⊢
  rw [queue, List.head?_append, holds]
  rfl

/-! ## Giving a lock back -/

theorem release_holds {l : PathLocks} {number holder : Nat} (holds : l.holds number holder = true)
    (given : Nat) {pass : Nat} (different : holder ≠ pass) :
    (l.release given pass).holds number holder = true := by
  rw [holds_iff] at holds ⊢
  unfold release
  rw [queue_put]
  split
  · rename_i same
    obtain ⟨rest, queue⟩ := List.head?_eq_some_iff.mp holds
    rw [← same, queue, List.erase_cons, if_neg (by simpa using different)]
    rfl
  · exact holds

theorem prune_numbered {l : PathLocks} (h : l.Numbered) : l.prune.2.Numbered :=
  fun path number known => h path number (List.mem_of_mem_filter known)

/-- The queue of a lock that is in use stays. -/
theorem prune_queue {l : PathLocks} {number pass : Nat} (waits : pass ∈ l.queue number) :
    l.prune.2.queue number = l.queue number := by
  have stays : Keyed.get? l.prune.2.queues number = Keyed.get? l.queues number := by
    refine Keyed.get?_filter l.queues fun passes held => ?_
    rw [queue, held] at waits
    exact Bool.not_eq_true' _ |>.mpr (List.isEmpty_eq_false_iff.mpr (List.ne_nil_of_mem waits))
  rw [queue, stays, queue]

/-! ## What a pass has of the locks -/

/-- A pass loses neither its place in the queue of a path nor the lock. -/
structure Keeps (pass : Nat) (before after : PathLocks) : Prop where
  place : ∀ path number, Keyed.get? before.numberOf path = some number →
    pass ∈ before.queue number → Keyed.get? after.numberOf path = some number ∧
      pass ∈ after.queue number
  holds : ∀ path number, Keyed.get? before.numberOf path = some number →
    before.holds number pass = true → after.holds number pass = true

namespace Keeps

variable {l : PathLocks} {pass : Nat}

theorem refl : Keeps pass l l :=
  ⟨fun _ _ known waits => ⟨known, waits⟩, fun _ _ _ holds => holds⟩

theorem request (numbered : l.Numbered) (path : String) (other : Nat) :
    Keeps pass l (l.request path other).2 := by
  constructor
  · intro here number known waits
    obtain ⟨more, queue⟩ := request_queue numbered known path other
    exact ⟨request_keeps known path other, queue ▸ List.mem_append_left more waits⟩
  · exact fun here number known holds => request_holds numbered known holds path other

theorem release (number : Nat) {other : Nat} (different : pass ≠ other) :
    Keeps pass l (l.release number other) := by
  constructor
  · intro path mine known waits
    refine ⟨known, ?_⟩
    rw [PathLocks.release, queue_put]
    split
    · rename_i same
      exact (List.mem_erase_of_ne different).mpr (same ▸ waits)
    · exact waits
  · exact fun _ _ _ holds => release_holds holds number different

theorem prune : Keeps pass l l.prune.2 := by
  constructor
  · intro path number known waits
    refine ⟨?_, (prune_queue waits).symm ▸ waits⟩
    refine (Keyed.get?_filter l.numberOf fun same held => ?_).trans known
    rw [known] at held
    cases held
    exact Bool.not_eq_true' _ |>.mpr (List.isEmpty_eq_false_iff.mpr (List.ne_nil_of_mem waits))
  · intro path number known holds
    rw [holds_iff] at holds ⊢
    rw [prune_queue (List.mem_of_mem_head? holds), holds]

end Keeps

end CodeSearch.PathLocks
