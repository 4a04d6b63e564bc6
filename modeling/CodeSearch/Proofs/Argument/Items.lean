import CodeSearch.Argument.Items
import CodeSearch.Proofs.Except
import CodeSearch.Proofs.Json.Steps
import CodeSearch.Proofs.Text

/-! # Items that are written in texts

What is written in a text weighs less than the text, since every item of an array takes a character
of its own, and one more stands between any two. So no text is left closed for its weight, and the
items of a text are those of what is written in it.
-/

namespace CodeSearch.Argument

open Json

/-! ## Weights -/

/-- What all items of a list weigh together. -/
def total {α : Type} (count : α → Nat) : List α → Nat
  | [] => 0
  | a :: rest => count a + total count rest

theorem total_append {α : Type} (count : α → Nat) (as bs : List α) :
    total count (as ++ bs) = total count as + total count bs := by
  induction as with
  | nil => exact (Nat.zero_add _).symm
  | cons a rest ih => simp only [List.cons_append, total, ih, Nat.add_assoc]

theorem total_reverse {α : Type} (count : α → Nat) (as : List α) :
    total count as.reverse = total count as := by
  induction as with
  | nil => rfl
  | cons a rest ih =>
      simp only [List.reverse_cons, total_append, total, ih]
      omega

theorem weightOfAll_eq_total (vs : List Json) :
    weightOfAll vs = total (fun v => weight v + 1) vs := by
  induction vs with
  | nil => rfl
  | cons v vs ih =>
      simp only [weightOfAll, total, ih]
      omega

theorem weightOfAll_reverse (vs : List Json) : weightOfAll vs.reverse = weightOfAll vs := by
  rw [weightOfAll_eq_total, total_reverse, weightOfAll_eq_total]

theorem weight_of_isScalar {v : Json} (scalar : v.isScalar = true) : weight v = 1 := by
  cases v with
  | arr | str => cases scalar
  | _ => rfl

def tokenWeight : Token → Nat
  | .atom v => weight v
  | _ => 1

theorem tokenWeight_of_isMark {t : Token} (mark : t.isMark = true) : tokenWeight t = 1 := by
  cases t with
  | atom v => cases mark
  | _ => rfl

/-! ## Tokens weigh no more than their text -/

def weightOfScan (s : Scan) : Nat :=
  total tokenWeight s.tokens + s.mode.size

section

variable {s t : Scan} {c : Char}

theorem weightOfScan_finish? (done : s.finish? = some t) :
    t.mode = .between ∧ weightOfScan t ≤ weightOfScan s := by
  rcases Scan.finish?_cases done with ⟨between, rfl⟩ | ⟨v, rfl, scalar, some⟩
  · exact ⟨between, Nat.le_refl _⟩
  · refine ⟨rfl, ?_⟩
    simp only [weightOfScan, total, tokenWeight, weight_of_isScalar scalar,
      Mode.size_between]
    omega

theorem weightOfScan_start? {ts : List Token} (started : Scan.start? ts c = some t) :
    weightOfScan t ≤ total tokenWeight ts + 1 := by
  rcases Scan.start?_cases started with ⟨rfl, -⟩ | ⟨mode, rfl, -, size⟩ | ⟨mark, rfl, isMark, -⟩
  · exact Nat.le_succ _
  · simp only [weightOfScan, size, Nat.le_refl]
  · simp only [weightOfScan, total, tokenWeight_of_isMark isMark,
      Mode.size_between]
    omega

theorem weightOfScan_step? (stepped : s.step? c = some t) :
    weightOfScan t ≤ weightOfScan s + 1 := by
  rcases Scan.step?_cases stepped with ⟨mode, rfl, -, size⟩ | ⟨seen, inString, rfl⟩ |
    ⟨u, done, started⟩
  · simp only [weightOfScan]
    omega
  · have length : (String.ofList seen.reverse).length = seen.length := by
      rw [String.length_ofList, List.length_reverse]
    simp only [weightOfScan, total, tokenWeight, weight, length, inString, Mode.size]
    omega
  · obtain ⟨between, less⟩ := weightOfScan_finish? done
    have more := weightOfScan_start? started
    simp only [weightOfScan, between, Mode.size_between] at less more ⊢
    omega

end

theorem total_tokenWeight_le {cs : List Char} {ts : List Token} (cut : tokens? cs = some ts) :
    total tokenWeight ts ≤ cs.length := by
  obtain ⟨scanned, steps, cut⟩ := Option.bind_eq_some_iff.mp cut
  obtain ⟨ended, done, cut⟩ := Option.bind_eq_some_iff.mp cut
  have keeps (read : List Char) (s : Scan) (c : Char) (t : Scan)
      (before : weightOfScan s ≤ read.length) (stepped : s.step? c = some t) :
      weightOfScan t ≤ (read ++ [c]).length := by
    have more := weightOfScan_step? stepped
    rw [List.length_append, List.length_singleton]
    omega
  have start : weightOfScan {} ≤ ([] : List Char).length := Nat.le_refl 0
  have read := foldlM_keeps (P := fun read s => weightOfScan s ≤ read.length) keeps start steps
  obtain ⟨between, less⟩ := weightOfScan_finish? done
  cases cut
  calc
    total tokenWeight ended.tokens.reverse = total tokenWeight ended.tokens := total_reverse ..
    _ = weightOfScan ended := by rw [weightOfScan, between, Mode.size_between, Nat.add_zero]
    _ ≤ weightOfScan scanned := less
    _ ≤ cs.length := read

/-! ## A value weighs no more than its tokens -/

def weightOfFrame : Frame → Nat
  | .array items => weightOfAll items + 1
  | .object _ _ => 1

/-- What is put together so far weighs no more than `n`. Behind a value that has been put into an
    array or object the comma is counted that is still to come. -/
def Fits (n : Nat) (b : Build) : Prop :=
  match b.next with
  | .more => total weightOfFrame b.stack ≤ n + 1
  | .nothing v => weight v ≤ n
  | _ => total weightOfFrame b.stack ≤ n

theorem Fits.plug {stack : List Frame} {v : Json} {n : Nat}
    (room : total weightOfFrame stack + weight v ≤ n) : Fits n (Build.plug stack v) := by
  cases stack with
  | nil => exact Nat.le_of_add_left_le room
  | cons frame rest =>
      cases frame with
      | array items =>
          simp only [total, weightOfFrame] at room
          simp only [Fits, Build.plug, total, weightOfFrame, weightOfAll]
          omega
      | object members key =>
          exact Nat.le_succ_of_le (Nat.le_of_add_right_le room)

theorem Fits.value? {stack : List Frame} {t : Token} {b : Build} {n : Nat}
    (room : total weightOfFrame stack ≤ n) (made : Build.value? stack t = some b) :
    Fits (n + tokenWeight t) b := by
  cases t with
  | openArray =>
      simp only [Build.value?, Build.openArray?] at made
      split at made
      · cases made
        simp only [Fits, total, weightOfFrame, weightOfAll, tokenWeight]
        omega
      · cases made
  | openObject =>
      simp only [Build.value?, Build.openObject?] at made
      split at made
      · cases made
        simp only [Fits, total, weightOfFrame, tokenWeight]
        omega
      · cases made
  | atom v =>
      cases made
      exact Fits.plug (Nat.add_le_add_right room _)
  | _ => cases made

theorem Fits.step? {b b' : Build} {t : Token} {n : Nat} (h : Fits n b)
    (stepped : b.step? t = some b') : Fits (n + tokenWeight t) b' := by
  obtain ⟨stack, next⟩ := b
  revert stepped
  fun_cases Build.step? ⟨stack, next⟩ t
  all_goals
    intro stepped
    dsimp only at *
    subst_vars
  -- A value begins.
  case case1 | case3 => exact Fits.value? h stepped
  -- A bracket closes an array or object, which goes where it belongs.
  case case2 | case4 | case8 | case10 =>
    cases stepped
    refine Fits.plug ?_
    simp only [Fits, total, weightOfFrame] at h
    simp only [weight, weightOfAll, weightOfAll_reverse, tokenWeight]
    omega
  -- A key, a colon or a comma only changes what may come next.
  case case5 | case6 | case7 | case9 | case11 =>
    cases stepped
    simp only [Fits, total, weightOfFrame] at h
    simp only [Fits, total, weightOfFrame, tokenWeight, weight]
    omega
  case case12 => cases stepped

/-- A value weighs no more than the text that it is read from is long. -/
theorem weight_le {s : String} {v : Json} (read : ofText? s = some v) : weight v ≤ s.length := by
  obtain ⟨ts, cut, made⟩ := Option.bind_eq_some_iff.mp read
  obtain ⟨b, built, whole⟩ := Option.bind_eq_some_iff.mp made
  have start : Fits (total tokenWeight []) {} := Nat.le_refl 0
  have keeps (read : List Token) (b : Build) (t : Token) (b' : Build)
      (before : Fits (total tokenWeight read) b) (stepped : b.step? t = some b') :
      Fits (total tokenWeight (read ++ [t])) b' := by
    have sum : total tokenWeight (read ++ [t]) = total tokenWeight read + tokenWeight t :=
      total_append tokenWeight read [t]
    exact sum ▸ before.step? stepped
  have fits := foldlM_keeps (P := fun read => Fits (total tokenWeight read)) keeps start built
  split at whole
  · rename_i w next
    simp only [Fits, next] at fits
    cases whole
    exact fits.trans (total_tokenWeight_le cut)
  · cases whole

/-! ## What is written in texts -/

section

variable {s : String} {v : Json}

theorem written?_iff :
    written? s = some v ↔ ofText? (Text.trim s) = some v ∧ v.isContainer = true := by
  unfold written?
  cases ofText? (Text.trim s) with
  | none => simp
  | some w =>
      cases w with
      | arr | obj =>
          refine ⟨fun same => ⟨same, ?_⟩, And.left⟩
          cases same
          rfl
      | _ =>
          refine ⟨nofun, ?_⟩
          rintro ⟨⟨⟩, ⟨⟩⟩

/-- No text is left closed for its weight. -/
theorem weight_of_written? (written : written? s = some v) : weight v < weight (.str s) := by
  have less := weight_le (written?_iff.mp written).1
  have trimmed := Text.length_trim s
  simp only [weight]
  omega

/-- The items of a text are those of the array or object that is written in it. -/
theorem items_of_written? (written : written? s = some v) : items (.str s) = items v := by
  have lighter : lighter? s = some ⟨v, weight_of_written? written⟩ := by
    rw [lighter?, written, Option.bind_some, dif_pos]
  rw [items, lighter]
  rfl

theorem items_of_unwritten (unwritten : written? s = none) :
    items (.str s) = if Text.isAllBlank s then [] else [.str s] := by
  rw [items, lighter?, unwritten]
  rfl

theorem isSpace_of_isBlank {c : Char} (visible : Text.isBlank c = false) : isSpace c = false := by
  refine Bool.eq_false_iff.mpr fun space => ?_
  rcases isSpace_iff.mp space with ((rfl | rfl) | rfl) | rfl
  all_goals cases visible

/-- Nothing is written in a text whose first character that is not blank is no opening bracket. -/
theorem written?_of_head {c : Char} {cs : List Char}
    (head : s.toList.dropWhile Text.isBlank = c :: cs) (noArray : c ≠ '[')
    (noObject : c ≠ '\x7b') : written? s = none := by
  refine Option.eq_none_iff_forall_ne_some.mpr fun v written => ?_
  obtain ⟨read, container⟩ := written?_iff.mp written
  obtain ⟨visible, rest, text⟩ := Text.toList_trim head
  have plain := not_isContainer_of_head text (isSpace_of_isBlank visible) noArray noObject read
  exact Bool.false_ne_true (plain.symm.trans container)

end

end CodeSearch.Argument
