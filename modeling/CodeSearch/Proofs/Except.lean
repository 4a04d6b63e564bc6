import Mathlib.Data.List.Basic
import Mathlib.Tactic.Common

/-! # Steps that can fail

A chain of steps gives a result when each of its steps does, and its error is that of a step. The
same is true of a step that is taken for each item of a list. What each step keeps is true of the
result.
-/

namespace CodeSearch

section

variable {ε δ α β : Type}

theorem ok_of_bind {x : Except ε α} {f : α → Except ε β} {b : β} (made : x >>= f = .ok b) :
    ∃ a, x = .ok a ∧ f a = .ok b := by
  cases x with
  | error cause => cases made
  | ok a => exact ⟨a, rfl, made⟩

/-- A step that is taken under a condition only, before the rest. -/
theorem ok_of_when {p : Prop} [Decidable p] {x : Except ε Unit} {f : Unit → Except ε β} {b : β}
    (made : (if p then x >>= f else f ()) = .ok b) : (p → x = .ok ()) ∧ f () = .ok b := by
  by_cases holds : p
  · rw [if_pos holds] at made
    obtain ⟨_, first, made⟩ := ok_of_bind made
    exact ⟨fun _ => first, made⟩
  · rw [if_neg holds] at made
    exact ⟨fun h => absurd h holds, made⟩

theorem error_of_bind {x : Except ε α} {f : α → Except ε β} {cause : ε}
    (failed : x >>= f = .error cause) :
    x = .error cause ∨ ∃ a, x = .ok a ∧ f a = .error cause := by
  cases x with
  | error other => exact .inl (congrArg Except.error (Except.error.inj failed))
  | ok a => exact .inr ⟨a, rfl, failed⟩

theorem ok_of_isOk {x : Except ε α} (made : x.isOk = true) : ∃ a, x = .ok a := by
  cases x with
  | error cause => cases made
  | ok a => exact ⟨a, rfl⟩

theorem ok_of_mapError {x : Except ε α} {f : ε → δ} {a : α} (made : x.mapError f = .ok a) :
    x = .ok a := by
  cases x with
  | error cause => cases made
  | ok b => exact congrArg Except.ok (Except.ok.inj made)

theorem error_of_mapError {x : Except ε α} {f : ε → δ} {cause : δ}
    (failed : x.mapError f = .error cause) : ∃ other, x = .error other ∧ f other = cause := by
  cases x with
  | error other => exact ⟨other, rfl, Except.error.inj failed⟩
  | ok a => cases failed

section

variable {f : α → Except ε β} {xs : List α}

/-- Every result of a list of steps is that of one of them. -/
theorem mem_of_mapM {ys : List β} (made : xs.mapM f = .ok ys) :
    ∀ y ∈ ys, ∃ x ∈ xs, f x = .ok y := by
  induction xs generalizing ys with
  | nil =>
      cases made
      exact fun y none => absurd none List.not_mem_nil
  | cons x rest ih =>
      rw [List.mapM_cons] at made
      obtain ⟨y, first, made⟩ := ok_of_bind made
      obtain ⟨more, others, made⟩ := ok_of_bind made
      cases made
      refine List.forall_mem_cons.mpr ⟨⟨x, List.mem_cons_self, first⟩, fun y inside => ?_⟩
      obtain ⟨x, member, gives⟩ := ih others y inside
      exact ⟨x, List.mem_cons_of_mem _ member, gives⟩

theorem forall_of_mapM {ys : List β} (made : xs.mapM f = .ok ys) :
    ∀ x ∈ xs, ∃ y, f x = .ok y := by
  induction xs generalizing ys with
  | nil => exact fun x none => absurd none List.not_mem_nil
  | cons x rest ih =>
      rw [List.mapM_cons] at made
      obtain ⟨y, first, made⟩ := ok_of_bind made
      obtain ⟨more, others, -⟩ := ok_of_bind made
      exact List.forall_mem_cons.mpr ⟨⟨y, first⟩, ih others⟩

theorem mapM_of_forall (each : ∀ x ∈ xs, ∃ y, f x = .ok y) : ∃ ys, xs.mapM f = .ok ys := by
  induction xs with
  | nil => exact ⟨[], rfl⟩
  | cons x rest ih =>
      obtain ⟨⟨y, first⟩, others⟩ := List.forall_mem_cons.mp each
      obtain ⟨ys, tail⟩ := ih others
      exact ⟨y :: ys, by rw [List.mapM_cons, first, tail]; rfl⟩

theorem mapM_singleton (f : α → Except ε β) (a : α) : [a].mapM f = (f a).map fun b => [b] := by
  rw [List.mapM_cons]
  cases f a with
  | error cause => rfl
  | ok b => rfl

theorem flatten_singleton (x : Except ε (List β)) :
    (x.map (fun b => [b]) >>= fun lists => pure lists.flatten) = x := by
  cases x with
  | error cause => rfl
  | ok b => exact congrArg Except.ok (List.append_nil b)

end

/-- What is true at first and is kept by each step is true at the end, also if it speaks of the
    items that were read. -/
theorem foldlM_keeps {σ : Type} {step : σ → α → Option σ} {P : List α → σ → Prop}
    (keeps : ∀ read s a t, P read s → step s a = some t → P (read ++ [a]) t)
    {xs : List α} {s t : σ} (start : P [] s) (made : xs.foldlM step s = some t) : P xs t := by
  suffices behind : ∀ read s, P read s → xs.foldlM step s = some t → P (read ++ xs) t from
    behind [] s start made
  clear start made
  induction xs with
  | nil =>
      intro read s holds made
      cases made
      rwa [List.append_nil]
  | cons a xs ih =>
      intro read s holds made
      rw [List.foldlM_cons] at made
      obtain ⟨u, stepped, made⟩ := Option.bind_eq_some_iff.mp made
      have rest := ih (read ++ [a]) u (keeps read s a u holds stepped) made
      rwa [List.append_assoc] at rest

end

end CodeSearch
