import CodeSearch.Keyed

/-! # Locks on paths

Passes over one path run one after the other. The first pass that asks for a path brings its lock
about; the passes that use a lock stand in a queue, of which the first one holds it. Locks that no
pass uses can be dropped, so that a path may have different locks at different times.
-/

namespace CodeSearch

structure PathLocks where
  /-- Number of the lock of each path. -/
  numberOf : Keyed String Nat := []
  /-- The passes that use a lock: the first one holds it, the others wait. -/
  queues : Keyed Nat (List Nat) := []
  nextNumber : Nat := 0
  deriving Repr, Inhabited

namespace PathLocks

/-- The passes that use a lock. -/
def queue (l : PathLocks) (number : Nat) : List Nat :=
  (Keyed.get? l.queues number).getD []

/-- Let a pass use the lock of a path, and tell its number. -/
def request (l : PathLocks) (path : String) (pass : Nat) : Nat × PathLocks :=
  match Keyed.get? l.numberOf path with
  | some number =>
    (number, { l with queues := Keyed.put l.queues number (l.queue number ++ [pass]) })
  | none =>
    (l.nextNumber,
      { numberOf := Keyed.put l.numberOf path l.nextNumber
        queues := Keyed.put l.queues l.nextNumber [pass]
        nextNumber := l.nextNumber + 1 })

def holds (l : PathLocks) (number pass : Nat) : Bool :=
  (l.queue number).head? == some pass

/-- Let a pass use a lock no more. -/
def release (l : PathLocks) (number pass : Nat) : PathLocks :=
  { l with queues := Keyed.put l.queues number ((l.queue number).erase pass) }

/-- Drop the locks that no pass uses, and tell how many there were. -/
def prune (l : PathLocks) : Nat × PathLocks :=
  let kept := l.numberOf.filter fun (_, number) => !(l.queue number).isEmpty
  (l.numberOf.length - kept.length,
    { l with numberOf := kept, queues := l.queues.filter fun (_, passes) => !passes.isEmpty })

end PathLocks

end CodeSearch
