import CodeSearch.Proofs.Text
import CodeSearch.Query
import Mathlib.Data.List.Basic

/-! # Names in questions

A question is cut from the left into names and single characters. A name is the longest one that
begins where it stands, and a character that begins no name is by itself. There is one such way to
cut a text, and it is what the scan finds by looking two characters ahead at most. Blank characters
around a text are by themselves, so trimming it takes no name away.
-/

namespace CodeSearch.Query

/-- Letters, digits and underscores, of which the first is no digit, and more of that kind behind a
    dot or behind two colons. -/
inductive IsName : List Char → Prop
  | start {c : Char} (begins : isNameStart c = true) : IsName [c]
  | char {n : List Char} {c : Char} (name : IsName n) (inside : isNameChar c = true) :
      IsName (n ++ [c])
  | dot {n : List Char} {c : Char} (name : IsName n) (begins : isNameStart c = true) :
      IsName (n ++ ['.', c])
  | colons {n : List Char} {c : Char} (name : IsName n) (begins : isNameStart c = true) :
      IsName (n ++ [':', ':', c])

/-- A text is cut into pieces from the left, with names as long as they can be. -/
inductive Cut : List Char → List Segment → Prop
  | nil : Cut [] []
  | other {c : Char} {cs : List Char} {pieces : List Segment} (begins : isNameStart c = false)
      (rest : Cut cs pieces) : Cut (c :: cs) (.other c :: pieces)
  | name {n cs : List Char} {pieces : List Segment} (name : IsName n)
      (longest : ∀ m, m ≠ [] → m <+: cs → ¬IsName (n ++ m)) (rest : Cut cs pieces) :
      Cut (n ++ cs) (.name (String.ofList n) :: pieces)

/-! ## Characters of names -/

theorem isNameStart_ascii {c : Char} (h : isNameStart c = true) : c.toNat < 128 := by
  simp only [isNameStart, Bool.or_eq_true, Bool.and_eq_true, decide_eq_true_eq, beq_iff_eq] at h
  rcases h with ⟨-, small⟩ | rfl
  · exact small
  · decide

theorem isNameChar_ascii {c : Char} (h : isNameChar c = true) : c.toNat < 128 := by
  rcases (Bool.or_eq_true _ _).to_iff.mp h with start | digit
  · exact isNameStart_ascii start
  · simp only [Char.isDigit, Bool.and_eq_true, decide_eq_true_eq] at digit
    exact Nat.lt_of_le_of_lt (UInt32.le_iff_toNat_le.mp digit.2) (by decide)

section

variable {n m : List Char} {c : Char}

theorem isNameChar_of_isNameStart (begins : isNameStart c = true) : isNameChar c = true :=
  (Bool.or_eq_true _ _).to_iff.mpr (.inl begins)

theorem IsName.head (name : IsName n) : ∃ c rest, n = c :: rest ∧ isNameStart c = true := by
  induction name with
  | start begins => exact ⟨_, _, rfl, begins⟩
  | char _ _ ih | dot _ _ ih | colons _ _ ih =>
      obtain ⟨c, rest, rfl, begins⟩ := ih
      exact ⟨c, _, List.cons_append, begins⟩

theorem IsName.ne_nil (name : IsName n) : n ≠ [] := by
  obtain ⟨c, rest, rfl, -⟩ := name.head
  exact List.cons_ne_nil c rest

/-- A name ends with a character of names, and not with a dot or colon. -/
theorem IsName.last (name : IsName (n ++ [c])) : isNameChar c = true := by
  have last {k : List Char} (name : IsName k) :
      ∃ front d, k = front ++ [d] ∧ isNameChar d = true := by
    cases name with
    | start begins => exact ⟨[], _, rfl, isNameChar_of_isNameStart begins⟩
    | char _ inside => exact ⟨_, _, rfl, inside⟩
    | dot _ begins => exact ⟨_, _, List.append_cons .., isNameChar_of_isNameStart begins⟩
    | @colons k d _ begins =>
        exact ⟨k ++ [':', ':'], d, by simp, isNameChar_of_isNameStart begins⟩
  obtain ⟨front, d, same, inside⟩ := last name
  exact (List.append_singleton_inj.mp same).2 ▸ inside

theorem IsName.ascii (name : IsName n) : Text.Ascii n := by
  have append {front back : List Char} (first : Text.Ascii front) (second : Text.Ascii back) :
      Text.Ascii (front ++ back) := List.forall_mem_append.mpr ⟨first, second⟩
  have single {c : Char} (small : c.toNat < 128) {rest : List Char} (others : Text.Ascii rest) :
      Text.Ascii (c :: rest) := List.forall_mem_cons.mpr ⟨small, others⟩
  induction name with
  | start begins => exact single (isNameStart_ascii begins) nofun
  | char _ inside ih => exact append ih (single (isNameChar_ascii inside) nofun)
  | dot _ begins ih =>
      exact append ih (single (by decide) (single (isNameStart_ascii begins) nofun))
  | colons _ begins ih =>
      refine append ih (single (by decide) (single (by decide) ?_))
      exact single (isNameStart_ascii begins) nofun

end

/-! ## How a name goes on -/

/-- A text that begins so makes a name before it longer. -/
inductive GoesOn : List Char → Prop
  | char {c : Char} (rest : List Char) (inside : isNameChar c = true) : GoesOn (c :: rest)
  | dot {c : Char} (rest : List Char) (begins : isNameStart c = true) : GoesOn ('.' :: c :: rest)
  | colons {c : Char} (rest : List Char) (begins : isNameStart c = true) :
      GoesOn (':' :: ':' :: c :: rest)

theorem GoesOn.append {m : List Char} (goesOn : GoesOn m) (rest : List Char) :
    GoesOn (m ++ rest) := by
  cases goesOn with
  | char _ inside => exact .char _ inside
  | dot _ begins => exact .dot _ begins
  | colons _ begins => exact .colons _ begins

theorem exists_snoc {k n m : List Char} {c : Char} (whole : k ++ [c] = n ++ m) (some : m ≠ []) :
    ∃ front, m = front ++ [c] ∧ k = n ++ front := by
  rcases List.eq_nil_or_concat m with none | ⟨front, d, rfl⟩
  · exact absurd none some
  · rw [List.concat_eq_append, ← List.append_assoc] at whole
    obtain ⟨before, same⟩ := List.append_singleton_inj.mp whole
    exact ⟨front, by rw [List.concat_eq_append, same], before⟩

/-- What makes a name a longer one. -/
theorem IsName.goesOn {k n m : List Char} (name : IsName k) (whole : k = n ++ m) (first : IsName n)
    (some : m ≠ []) : GoesOn m := by
  -- The shorter name does not end with a dot or colon, so a whole piece has been added.
  have noEnd {front rest : List Char} {c : Char} (mark : isNameChar c = false)
      (ends : front ++ [c] = n ++ rest) : rest ≠ [] := by
    rintro rfl
    rw [List.append_nil] at ends
    exact Bool.false_ne_true (mark.symm.trans (ends ▸ first).last)
  induction name generalizing m with
  | @start c begins =>
      obtain ⟨d, rest, rfl, -⟩ := first.head
      have none : rest ++ m = [] := (List.cons.inj whole).2.symm
      exact absurd (List.append_eq_nil_iff.mp none).2 some
  | char _ inside ih =>
      obtain ⟨front, rfl, before⟩ := exists_snoc whole some
      by_cases none : front = []
      · subst none
        exact .char [] inside
      · exact (ih before none).append _
  | dot _ begins ih =>
      rw [List.append_cons] at whole
      obtain ⟨ends, rfl, dotted⟩ := exists_snoc whole some
      obtain ⟨front, rfl, before⟩ := exists_snoc dotted (noEnd rfl dotted)
      by_cases none : front = []
      · subst none
        exact .dot [] begins
      · exact ((ih before none).append _).append _
  | colons _ begins ih =>
      rw [List.append_cons, List.append_cons] at whole
      obtain ⟨ends, rfl, twice⟩ := exists_snoc whole some
      obtain ⟨ends, rfl, once⟩ := exists_snoc twice (noEnd rfl twice)
      obtain ⟨front, rfl, before⟩ := exists_snoc once (noEnd rfl once)
      by_cases none : front = []
      · subst none
        exact .colons [] begins
      · exact (((ih before none).append _).append _).append _

theorem IsName.longest {n cs : List Char} (name : IsName n) (stops : ¬GoesOn cs) (m : List Char)
    (some : m ≠ []) (begins : m <+: cs) : ¬IsName (n ++ m) := by
  intro longer
  obtain ⟨rest, rfl⟩ := begins
  exact stops ((longer.goesOn rfl name some).append rest)

/-! ## The scan -/

namespace ScanState

/-- What a scan has seen of a name. -/
def seen : ScanState → List Char
  | .between => []
  | .inName seen | .afterDot seen | .afterColon seen | .afterColons seen => seen

/-- What stands between a name and the place where the scan is. -/
def separator : ScanState → List Char
  | .between | .inName _ => []
  | .afterDot _ => ['.']
  | .afterColon _ => [':']
  | .afterColons _ => [':', ':']

/-- What was read and belongs to no piece yet. -/
def pending (s : ScanState) : List Char :=
  s.seen.reverse ++ s.separator

/-- What the scan has seen is a name, unless it is between names. -/
def Sound (s : ScanState) : Prop :=
  s = .between ∨ IsName s.seen.reverse

end ScanState

section

variable {s : ScanState} {c : Char} {cs : List Char} {pieces : List Segment}

/-- The pieces that are complete when a name does not go on. -/
theorem Cut.flush (sound : s.Sound) (stops : s ≠ .between → ¬GoesOn (s.separator ++ cs))
    (rest : Cut cs pieces) : Cut (s.pending ++ cs) (s.flush ++ pieces) := by
  rcases sound with rfl | name
  · exact rest
  cases s with
  | between => exact rest
  | inName seen =>
      rw [ScanState.pending, List.append_assoc]
      exact .name name (name.longest (stops nofun)) rest
  | afterDot seen =>
      rw [ScanState.pending, List.append_assoc]
      exact .name name (name.longest (stops nofun)) (.other rfl rest)
  | afterColon seen =>
      rw [ScanState.pending, List.append_assoc]
      exact .name name (name.longest (stops nofun)) (.other rfl rest)
  | afterColons seen =>
      rw [ScanState.pending, List.append_assoc]
      exact .name name (name.longest (stops nofun)) (.other rfl (.other rfl rest))

/-- A character that does not go on with a name begins one, or is by itself. -/
theorem Cut.restart (rest : Cut ((ScanState.restart c).1.pending ++ cs) pieces) :
    Cut (c :: cs) ((ScanState.restart c).2 ++ pieces) := by
  unfold ScanState.restart at rest ⊢
  split at rest
  · rename_i begins
    rw [if_pos begins]
    exact rest
  · rename_i other
    rw [if_neg other]
    exact .other (Bool.eq_false_iff.mpr other) rest

theorem ScanState.restart_sound (c : Char) : (ScanState.restart c).1.Sound := by
  unfold ScanState.restart
  split
  · rename_i begins
    exact .inr (.start begins)
  · exact .inl rfl

/-- What one character does: a name or what may join two of them goes on with it, or else what was
    read is complete, and the scan starts anew with it. -/
theorem ScanState.step_cases (sound : s.Sound) (c : Char) :
    (∃ t, s.step c = (t, []) ∧ t.Sound ∧ t.pending = s.pending ++ [c]) ∨
      s.step c = ((restart c).1, s.flush ++ (restart c).2) ∧
        ∀ cs, s ≠ .between → ¬GoesOn (s.separator ++ c :: cs) := by
  rcases sound with rfl | name
  · exact .inr ⟨rfl, fun _ other => absurd rfl other⟩
  cases s with
  | between => exact .inr ⟨rfl, fun _ other => absurd rfl other⟩
  | inName seen =>
      simp only [step]
      split
      · rename_i inside
        refine .inl ⟨_, rfl, .inr ?_, ?_⟩
        · rw [ScanState.seen, List.reverse_cons]
          exact .char name inside
        · simp [pending, separator, ScanState.seen]
      · rename_i outside
        split
        · rename_i dot
          refine .inl ⟨_, rfl, .inr name, ?_⟩
          simp [pending, separator, ScanState.seen, beq_iff_eq.mp dot]
        · rename_i noDot
          split
          · rename_i colon
            refine .inl ⟨_, rfl, .inr name, ?_⟩
            simp [pending, separator, ScanState.seen, beq_iff_eq.mp colon]
          · rename_i noColon
            refine .inr ⟨rfl, fun cs _ goesOn => ?_⟩
            cases goesOn with
            | char _ inside => exact outside inside
            | dot _ _ => exact noDot rfl
            | colons _ _ => exact noColon rfl
  | afterDot seen =>
      simp only [step]
      split
      · rename_i begins
        refine .inl ⟨_, rfl, .inr ?_, ?_⟩
        · rw [ScanState.seen, List.reverse_cons, List.reverse_cons, List.append_assoc]
          exact .dot name begins
        · simp [pending, separator, ScanState.seen]
      · rename_i other
        refine .inr ⟨rfl, fun cs _ goesOn => ?_⟩
        cases goesOn with
        | char _ inside => cases inside
        | dot _ begins => exact other begins
  | afterColon seen =>
      simp only [step]
      split
      · rename_i colon
        refine .inl ⟨_, rfl, .inr name, ?_⟩
        simp [pending, separator, ScanState.seen, beq_iff_eq.mp colon]
      · rename_i other
        refine .inr ⟨rfl, fun cs _ goesOn => ?_⟩
        cases goesOn with
        | char _ inside => cases inside
        | colons _ _ => exact other rfl
  | afterColons seen =>
      simp only [step]
      split
      · rename_i begins
        refine .inl ⟨_, rfl, .inr ?_, ?_⟩
        · simp only [ScanState.seen, List.reverse_cons, List.append_assoc]
          exact .colons name begins
        · simp [pending, separator, ScanState.seen]
      · rename_i other
        refine .inr ⟨rfl, fun cs _ goesOn => ?_⟩
        cases goesOn with
        | char _ inside => cases inside
        | colons _ begins => exact other begins

theorem cut_segments (sound : s.Sound) (cs : List Char) :
    Cut (s.pending ++ cs) (segments s cs) := by
  induction cs generalizing s with
  | nil =>
      have flushed : Cut (s.pending ++ []) (s.flush ++ []) := by
        refine Cut.flush sound (fun other goesOn => ?_) .nil
        cases s with
        | between => exact other rfl
        | inName _ => cases goesOn
        | afterDot _ | afterColon _ | afterColons _ =>
            cases goesOn with
            | char _ inside => cases inside
      rwa [List.append_nil s.flush] at flushed
  | cons c cs ih =>
      rcases ScanState.step_cases sound c with ⟨t, step, next, read⟩ | ⟨step, stops⟩
      · simp only [segments, step, List.nil_append]
        rw [List.append_cons, ← read]
        exact ih next
      · simp only [segments, step, List.append_assoc]
        exact Cut.flush sound (stops cs) (Cut.restart (ih (ScanState.restart_sound c)))

end

/-! ## One way to cut -/

theorem Cut.isName {text : List Char} {pieces : List Segment} (cut : Cut text pieces) {s : String}
    (inside : .name s ∈ pieces) : IsName s.toList := by
  induction cut with
  | nil => cases inside
  | other _ _ ih =>
      rcases List.mem_cons.mp inside with same | later
      · cases same
      · exact ih later
  | name name _ _ ih =>
      rcases List.mem_cons.mp inside with same | later
      · rw [Segment.name.inj same, String.toList_ofList]
        exact name
      · exact ih later

theorem Cut.inversion {text : List Char} {pieces : List Segment} (cut : Cut text pieces) :
    text = [] ∧ pieces = [] ∨
      (∃ c cs rest, text = c :: cs ∧ pieces = .other c :: rest ∧ isNameStart c = false ∧
        Cut cs rest) ∨
      ∃ n cs rest, text = n ++ cs ∧ pieces = .name (String.ofList n) :: rest ∧ IsName n ∧
        (∀ m, m ≠ [] → m <+: cs → ¬IsName (n ++ m)) ∧ Cut cs rest := by
  cases cut with
  | nil => exact .inl ⟨rfl, rfl⟩
  | other begins rest => exact .inr (.inl ⟨_, _, _, rfl, rfl, begins, rest⟩)
  | name name longest rest => exact .inr (.inr ⟨_, _, _, rfl, rfl, name, longest, rest⟩)

theorem Cut.unique {text : List Char} {pieces others : List Segment} (cut : Cut text pieces)
    (again : Cut text others) : others = pieces := by
  -- A name begins where no character is by itself.
  have begun {n cs more : List Char} {c : Char} (name : IsName n) (other : isNameStart c = false)
      (same : n ++ cs = c :: more) : False := by
    obtain ⟨d, rest, rfl, begins⟩ := name.head
    exact Bool.false_ne_true (other.symm.trans ((List.cons.inj same).1 ▸ begins))
  induction cut generalizing others with
  | nil =>
      rcases again.inversion with ⟨-, none⟩ | ⟨c, cs, rest, text, -⟩ |
        ⟨n, cs, rest, text, -, name, -⟩
      · exact none
      · cases text
      · exact absurd (List.append_eq_nil_iff.mp text.symm).1 name.ne_nil
  | other begins _ ih =>
      rcases again.inversion with ⟨text, -⟩ | ⟨c, cs, rest, text, rfl, -, more⟩ |
        ⟨n, cs, rest, text, -, name, -⟩
      · cases text
      · obtain ⟨rfl, rfl⟩ := List.cons.inj text
        rw [ih more]
      · exact (begun name begins text.symm).elim
  | @name n cs pieces name longest _ ih =>
      rcases again.inversion with ⟨text, -⟩ | ⟨c, ds, rest, text, -, begins, -⟩ |
        ⟨k, ds, rest, text, rfl, other, longer, more⟩
      · exact absurd (List.append_eq_nil_iff.mp text).1 name.ne_nil
      · exact (begun name begins text).elim
      · rcases List.append_eq_append_iff.mp text with ⟨m, rfl, rfl⟩ | ⟨m, rfl, rfl⟩
        · by_cases none : m = []
          · subst none
            rw [List.append_nil, ih more]
          · exact absurd other (longest m none (List.prefix_append ..))
        · by_cases none : m = []
          · subst none
            rw [List.append_nil, ih more]
          · exact absurd name (longer m none (List.prefix_append ..))

theorem cut_iff {text : List Char} {pieces : List Segment} :
    Cut text pieces ↔ pieces = segments .between text := by
  have scanned : Cut text (segments .between text) := cut_segments (.inl rfl) text
  constructor
  · exact scanned.unique
  · rintro rfl
    exact scanned

/-! ## Blank characters around a text -/

section

variable {c : Char} {cs blanks : List Char} {pieces : List Segment}

theorem isBlank_of_isNameChar (inside : isNameChar c = true) : Text.isBlank c = false := by
  have all : ∀ n < 128, isNameChar (Char.ofNat n) = true →
      Text.isBlank (Char.ofNat n) = false := by decide +kernel
  have one := all c.toNat (isNameChar_ascii inside)
  rw [Char.ofNat_toNat] at one
  exact one inside

theorem isNameStart_of_isBlank (blank : Text.isBlank c = true) : isNameStart c = false := by
  refine Bool.eq_false_iff.mpr fun begins => ?_
  exact Bool.false_ne_true
    ((isBlank_of_isNameChar (isNameChar_of_isNameStart begins)).symm.trans blank)

theorem Cut.after_blanks (cut : Cut cs pieces) (blank : ∀ c ∈ blanks, Text.isBlank c = true) :
    Cut (blanks ++ cs) (blanks.map .other ++ pieces) := by
  induction blanks with
  | nil => exact cut
  | cons c blanks ih =>
      obtain ⟨first, others⟩ := List.forall_mem_cons.mp blank
      exact .other (isNameStart_of_isBlank first) (ih others)

theorem Cut.before_blanks (cut : Cut cs pieces) (blank : ∀ c ∈ blanks, Text.isBlank c = true) :
    Cut (cs ++ blanks) (pieces ++ blanks.map .other) := by
  induction cut with
  | nil => simpa using Cut.nil.after_blanks blank
  | other begins _ ih => exact .other begins ih
  | @name n cs pieces name longest _ ih =>
      rw [List.append_assoc]
      refine .name name (fun m some begins longer => ?_) ih
      obtain ⟨rest, whole⟩ := begins
      rcases List.append_eq_append_iff.mp whole with ⟨more, rfl, -⟩ | ⟨more, rfl, rfl⟩
      · exact longest m some (List.prefix_append ..) longer
      · -- A longer name would end with a blank character.
        rcases List.eq_nil_or_concat more with rfl | ⟨front, c, rfl⟩
        · rw [List.append_nil] at longer some
          exact longest cs some List.prefix_rfl longer
        · rw [List.concat_eq_append, ← List.append_assoc, ← List.append_assoc] at longer
          have visible := isBlank_of_isNameChar longer.last
          have unseen := blank c (by simp)
          exact Bool.false_ne_true (visible.symm.trans unseen)

/-- Trimming a text takes no name away. -/
theorem name_mem_of_trim {text name : String} (cut : Cut text.toList pieces) :
    .name name ∈ segments .between (Text.trim text).toList ↔ .name name ∈ pieces := by
  obtain ⟨tail, whole, after⟩ :=
    Text.exists_dropEndWhile Text.isBlank (text.toList.dropWhile Text.isBlank)
  have trimmed : (Text.trim text).toList =
      Text.dropEndWhile Text.isBlank (text.toList.dropWhile Text.isBlank) := String.toList_ofList
  have before := List.all_eq_true.mp (List.all_takeWhile (p := Text.isBlank) (l := text.toList))
  have same := ((cut_iff.mpr rfl : Cut (Text.trim text).toList _).before_blanks after).after_blanks
    before
  rw [trimmed, ← whole, List.takeWhile_append_dropWhile] at same
  rw [same.unique cut, trimmed]
  simp

end

end CodeSearch.Query
