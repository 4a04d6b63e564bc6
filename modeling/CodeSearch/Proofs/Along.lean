/-! # Along a run

A run makes one move after the other. What is asked of a move may depend on the state in which it
is made; an invariant has to be kept only by moves of which this is true.
-/

namespace CodeSearch

section

variable {σ μ : Type} {move : σ → μ → σ} {admits : σ → μ → Prop} {s : σ} {moves : List μ}

/-- Every move of a run is admitted in the state in which it is made. -/
def Along (move : σ → μ → σ) (admits : σ → μ → Prop) (s : σ) : List μ → Prop
  | [] => True
  | m :: rest => admits s m ∧ Along move admits (move s m) rest

namespace Along

instance decidable [∀ s m, Decidable (admits s m)] :
    ∀ s moves, Decidable (Along move admits s moves)
  | _, [] => .isTrue trivial
  | s, m :: rest =>
    have := decidable (move s m) rest
    inferInstanceAs (Decidable (admits s m ∧ Along move admits (move s m) rest))

theorem of_forall (admitted : ∀ s m, admits s m) (s : σ) (moves : List μ) :
    Along move admits s moves := by
  induction moves generalizing s with
  | nil => trivial
  | cons m rest ih => exact ⟨admitted s m, ih _⟩

theorem imp {other : σ → μ → Prop} (weaker : ∀ s m, admits s m → other s m)
    (h : Along move admits s moves) : Along move other s moves := by
  induction moves generalizing s with
  | nil => trivial
  | cons m rest ih => exact ⟨weaker s m h.1, ih h.2⟩

/-- What admitted moves keep, a run keeps. -/
theorem invariant {motive : σ → Prop} (h : Along move admits s moves) (start : motive s)
    (step : ∀ s m, motive s → admits s m → motive (move s m)) : motive (moves.foldl move s) := by
  induction moves generalizing s with
  | nil => exact start
  | cons m rest ih => exact ih h.2 (step s m start h.1)

end Along

end

end CodeSearch
