import CodeSearch.Language

/-! # Loaded grammars

Grammars are loaded once each, into numbered slots.
-/

namespace CodeSearch.Grammar

/-- The slots, of which a loaded one holds the language whose grammar was put there. -/
structure LoadedSlots where
  slots : List (Option Language) := []
  deriving Repr, DecidableEq

namespace LoadedSlots

/-- The language in a slot and whether it had to be loaded. A free slot takes `language`, and
    slots up to it are made. -/
def getOrLoad (s : LoadedSlots) (slot : Nat) (language : Language) :
    Language × Bool × LoadedSlots :=
  match s.slots[slot]? with
  | some (some held) => (held, false, s)
  | _ =>
    let padded := s.slots ++ List.replicate (slot + 1 - s.slots.length) none
    (language, true, ⟨padded.set slot (some language)⟩)

/-- Number of loaded grammars. -/
def size (s : LoadedSlots) : Nat :=
  s.slots.countP (·.isSome)

end LoadedSlots

end CodeSearch.Grammar
