import CodeSearch.Proofs.Except
import CodeSearch.Proofs.Json.Number

/-! # Steps of the reader

What one character does to the tokenizer: it goes on with what is being read, ends a string, or ends
a number or word and starts something else. What is being read grows by one character at most. A text
that starts with anything else than an opening bracket or a blank writes no array and no object.
-/

namespace CodeSearch.Json

/-- A value without values or characters inside of it. -/
def isScalar : Json → Bool
  | null | bool _ | int _ | float _ => true
  | _ => false

/-- An array or object. -/
def isContainer : Json → Bool
  | arr _ | obj _ => true
  | _ => false

theorem isSpace_iff {c : Char} :
    isSpace c = true ↔ ((c = ' ' ∨ c = '\n') ∨ c = '\t') ∨ c = '\r' := by
  simp only [isSpace, Bool.or_eq_true, beq_iff_eq]

/-- A comma, colon or bracket. -/
def Token.isMark : Token → Bool
  | .atom _ => false
  | _ => true

/-- A bracket that opens an array or object. -/
def Token.opens : Token → Bool
  | .openArray | .openObject => true
  | _ => false

/-- How many characters at least were read since the last token. -/
def Mode.size : Mode → Nat
  | .between => 0
  | .number seen | .word seen => seen.length
  | .string seen => seen.length + 1
  | .escape seen | .hex seen _ _ _ | .pair seen _ | .pairEscape seen _ => seen.length + 2

@[simp] theorem Mode.size_between : Mode.between.size = 0 :=
  rfl

section

variable {s t : Scan} {c : Char}

theorem Scan.start?_cases {ts : List Token} (started : Scan.start? ts c = some t) :
    (t = ⟨ts, .between⟩ ∧ isSpace c = true) ∨
      (∃ mode, t = ⟨ts, mode⟩ ∧ mode ≠ .between ∧ mode.size = 1) ∨
      ∃ mark, t = ⟨mark :: ts, .between⟩ ∧ mark.isMark = true ∧
        (mark.opens = true → c = '[' ∨ c = '\x7b') := by
  have inside {mode : Mode} (modal : some ⟨ts, mode⟩ = some t) (within : mode ≠ .between)
      (size : mode.size = 1) : ∃ mode, t = ⟨ts, mode⟩ ∧ mode ≠ .between ∧ mode.size = 1 :=
    ⟨mode, (Option.some.inj modal).symm, within, size⟩
  unfold start? at started
  split at started
  · exact .inl ⟨(Option.some.inj started).symm, ‹_›⟩
  split at started
  · exact .inr (.inl (inside started nofun rfl))
  split at started
  · exact .inr (.inl (inside started nofun rfl))
  split at started
  · exact .inr (.inl (inside started nofun rfl))
  refine .inr (.inr ?_)
  split at started
  · exact ⟨_, (Option.some.inj started).symm, rfl, fun _ => .inl rfl⟩
  · exact ⟨_, (Option.some.inj started).symm, rfl, nofun⟩
  · exact ⟨_, (Option.some.inj started).symm, rfl, fun _ => .inr rfl⟩
  · exact ⟨_, (Option.some.inj started).symm, rfl, nofun⟩
  · exact ⟨_, (Option.some.inj started).symm, rfl, nofun⟩
  · exact ⟨_, (Option.some.inj started).symm, rfl, nofun⟩
  · cases started

theorem Scan.finish?_cases (done : s.finish? = some t) :
    (s.mode = .between ∧ t = s) ∨
      ∃ v, t = ⟨.atom v :: s.tokens, .between⟩ ∧ v.isScalar = true ∧ 1 ≤ s.mode.size := by
  obtain ⟨tokens, mode⟩ := s
  cases mode with
  | between => exact .inl ⟨rfl, (Option.some.inj done).symm⟩
  | number seen =>
      obtain ⟨n, read, rfl⟩ := Option.map_eq_some_iff.mp done
      have scalar : n.isScalar = true := by
        rcases number?_cases read with ⟨n, rfl⟩ | ⟨x, rfl⟩
        · rfl
        · rfl
      obtain ⟨-, first, rest, digits, -⟩ := number?_numeric read
      have some : 1 ≤ seen.length := by
        rw [← List.length_reverse, digits]
        exact Nat.le_add_left ..
      exact .inr ⟨n, rfl, scalar, some⟩
  | word seen =>
      have some {word : String} (read : String.ofList seen.reverse = word)
          (letters : 1 ≤ word.length) : 1 ≤ seen.length := by
        rwa [← read, String.length_ofList, List.length_reverse] at letters
      simp only [Scan.finish?] at done
      split at done
      · exact .inr ⟨_, (Option.some.inj done).symm, rfl, some ‹_› (by decide)⟩
      · exact .inr ⟨_, (Option.some.inj done).symm, rfl, some ‹_› (by decide)⟩
      · exact .inr ⟨_, (Option.some.inj done).symm, rfl, some ‹_› (by decide)⟩
      · cases done
  | _ => cases done

theorem Mode.ofUnit?_size {seen : List Char} {unit : Nat} {lead : Option Nat} {mode : Mode}
    (read : Mode.ofUnit? seen unit lead = some mode) :
    mode ≠ .between ∧ mode.size ≤ seen.length + 2 := by
  unfold Mode.ofUnit? at read
  split at read
  · split at read
    · cases read
      exact ⟨nofun, Nat.le_refl _⟩
    · split at read
      · cases read
      · cases read
        exact ⟨nofun, Nat.le_refl _⟩
  · split at read
    · cases read
      exact ⟨nofun, Nat.le_refl _⟩
    · cases read

theorem Mode.inString?_size {before mode : Mode} (read : before.inString? c = some mode) :
    mode ≠ .between ∧ mode.size ≤ before.size + 1 := by
  have longer (seen : List Char) (d : Char) (modal : some (Mode.string (d :: seen)) = some mode) :
      mode ≠ .between ∧ mode.size = seen.length + 2 := by
    cases modal
    exact ⟨nofun, rfl⟩
  cases before with
  | string seen =>
      simp only [inString?] at read
      split at read
      · cases read
        exact ⟨nofun, Nat.le_refl _⟩
      · split at read
        · cases read
        · exact (longer seen c read).imp_right Nat.le_of_eq
  | escape seen =>
      simp only [inString?] at read
      have short {d : Char} (modal : some (Mode.string (d :: seen)) = some mode) :=
        (longer seen d modal).imp_right fun size => Nat.le_succ_of_le (Nat.le_of_eq size)
      split at read
      iterate 8 exact short read
      · cases read
        exact ⟨nofun, Nat.le_succ _⟩
      · cases read
  | hex seen left value lead =>
      obtain ⟨digit, -, read⟩ := Option.bind_eq_some_iff.mp read
      dsimp only at read
      split at read
      · exact (ofUnit?_size read).imp_right Nat.le_succ_of_le
      · cases read
        exact ⟨nofun, Nat.le_succ _⟩
  | pair seen lead =>
      simp only [inString?] at read
      split at read
      · cases read
        exact ⟨nofun, Nat.le_succ _⟩
      · cases read
  | pairEscape seen lead =>
      simp only [inString?] at read
      split at read
      · cases read
        exact ⟨nofun, Nat.le_succ _⟩
      · cases read
  | _ => cases read

/-- What one character does: what is being read goes on, or a string ends, or else a number or word
    ends where one is being read, and something may begin. -/
theorem Scan.step?_cases (stepped : s.step? c = some t) :
    (∃ mode, t = ⟨s.tokens, mode⟩ ∧ mode ≠ .between ∧ mode.size ≤ s.mode.size + 1) ∨
      (∃ seen, s.mode = .string seen ∧
        t = ⟨.atom (str (String.ofList seen.reverse)) :: s.tokens, .between⟩) ∨
      ∃ u, s.finish? = some u ∧ Scan.start? u.tokens c = some t := by
  have inside (read : (s.mode.inString? c).map (fun mode => { s with mode }) = some t) :
      ∃ mode, t = ⟨s.tokens, mode⟩ ∧ mode ≠ .between ∧ mode.size ≤ s.mode.size + 1 := by
    obtain ⟨mode, within, rfl⟩ := Option.map_eq_some_iff.mp read
    exact ⟨mode, rfl, Mode.inString?_size within⟩
  obtain ⟨tokens, mode⟩ := s
  cases mode with
  | between => exact .inr (.inr ⟨_, rfl, stepped⟩)
  | number seen =>
      simp only [Scan.step?] at stepped
      split at stepped
      · cases stepped
        exact .inl ⟨_, rfl, nofun, Nat.le_refl _⟩
      · exact .inr (.inr (Option.bind_eq_some_iff.mp stepped))
  | word seen =>
      simp only [Scan.step?] at stepped
      split at stepped
      · cases stepped
        exact .inl ⟨_, rfl, nofun, Nat.le_refl _⟩
      · exact .inr (.inr (Option.bind_eq_some_iff.mp stepped))
  | string seen =>
      simp only [Scan.step?] at stepped
      split at stepped
      · cases stepped
        exact .inr (.inl ⟨seen, rfl, rfl⟩)
      · exact .inl (inside stepped)
  | _ => exact .inl (inside stepped)

end

/-! ## First characters -/

theorem isContainer_of_isScalar {v : Json} (scalar : v.isScalar = true) :
    v.isContainer = false := by
  cases v with
  | arr | obj => cases scalar
  | _ => rfl

/-- What is read as a token by itself is no array and no object. -/
def Token.isPlain : Token → Bool
  | .atom v => !v.isContainer
  | _ => true

/-- What is true while a text is cut that starts with neither an opening bracket nor a blank. -/
structure Scan.Unopened (s : Scan) : Prop where
  plain : ∀ t ∈ s.tokens, t.isPlain = true
  first : ∀ t ∈ s.tokens.getLast?, t.opens = false
  /-- Where there is no token yet, one is being read. -/
  begun : s.tokens = [] → s.mode ≠ .between

section

variable {s t : Scan} {c : Char}

theorem Scan.Unopened.push (h : s.Unopened) {token : Token} (plain : token.isPlain = true)
    (notFirst : s.tokens = [] → token.opens = false) :
    Unopened ⟨token :: s.tokens, .between⟩ where
  plain := List.forall_mem_cons.mpr ⟨plain, h.plain⟩
  first := by
    cases empty : s.tokens with
    | nil =>
        rintro t ⟨⟩
        exact notFirst empty
    | cons first rest => exact fun t last => h.first t (empty ▸ last)
  begun := nofun

theorem Scan.Unopened.atom (h : s.Unopened) {v : Json} (plain : v.isContainer = false) :
    Unopened ⟨.atom v :: s.tokens, .between⟩ :=
  h.push (by simp [Token.isPlain, plain]) fun _ => rfl

theorem Token.isPlain_of_isMark {t : Token} (mark : t.isMark = true) : t.isPlain = true := by
  cases t with
  | atom v => cases mark
  | _ => rfl

theorem Scan.Unopened.finish? (h : s.Unopened) (done : s.finish? = some t) :
    t.Unopened ∧ t.mode = .between := by
  rcases finish?_cases done with ⟨between, rfl⟩ | ⟨v, rfl, scalar, -⟩
  · exact ⟨h, between⟩
  · exact ⟨h.atom (isContainer_of_isScalar scalar), rfl⟩

theorem Scan.Unopened.start? (h : s.Unopened) (between : s.mode = .between)
    (started : Scan.start? s.tokens c = some t) : t.Unopened := by
  rcases start?_cases started with ⟨rfl, -⟩ | ⟨mode, rfl, within, -⟩ | ⟨mark, rfl, isMark, -⟩
  · exact ⟨h.plain, h.first, fun none => absurd between (h.begun none)⟩
  · exact ⟨h.plain, h.first, fun _ => within⟩
  · exact h.push (Token.isPlain_of_isMark isMark) fun none => absurd between (h.begun none)

theorem Scan.Unopened.step? (h : s.Unopened) (stepped : s.step? c = some t) : t.Unopened := by
  rcases step?_cases stepped with ⟨mode, rfl, within, -⟩ | ⟨seen, -, rfl⟩ | ⟨u, done, started⟩
  · exact ⟨h.plain, h.first, fun _ => within⟩
  · exact h.atom rfl
  · obtain ⟨unopened, between⟩ := h.finish? done
    exact unopened.start? between started

theorem Scan.Unopened.begin (visible : isSpace c = false) (noArray : c ≠ '[')
    (noObject : c ≠ '\x7b') (started : Scan.start? [] c = some t) : t.Unopened := by
  rcases start?_cases started with ⟨rfl, space⟩ | ⟨mode, rfl, within, -⟩ |
    ⟨mark, rfl, isMark, opens⟩
  · exact absurd space (Bool.eq_false_iff.mp visible)
  · exact ⟨nofun, nofun, fun _ => within⟩
  · refine ⟨List.forall_mem_singleton.mpr (Token.isPlain_of_isMark isMark), ?_, nofun⟩
    rintro first ⟨⟩
    exact Bool.eq_false_iff.mpr fun open_ => (opens open_).elim noArray noObject

end

/-- Nothing follows a value that is complete. -/
theorem Build.foldlM_nothing {v : Json} {ts : List Token} {b : Build}
    (built : ts.foldlM Build.step? { next := .nothing v } = some b) : b.next = .nothing v := by
  cases ts with
  | nil =>
      cases built
      rfl
  | cons t ts => cases built

/-- The first of the tokens opens nothing, and none of them is an array or object by itself. -/
theorem tokens?_unopened {c : Char} {cs : List Char} {ts : List Token}
    (visible : isSpace c = false) (noArray : c ≠ '[') (noObject : c ≠ '\x7b')
    (cut : tokens? (c :: cs) = some ts) :
    (∀ t ∈ ts, t.isPlain = true) ∧ ∀ t ∈ ts.head?, t.opens = false := by
  obtain ⟨scanned, steps, cut⟩ := Option.bind_eq_some_iff.mp cut
  obtain ⟨ended, done, cut⟩ := Option.bind_eq_some_iff.mp cut
  rw [List.foldlM_cons] at steps
  obtain ⟨begun, started, steps⟩ := Option.bind_eq_some_iff.mp steps
  have start : begun.Unopened := .begin visible noArray noObject started
  have unopened := (foldlM_keeps (P := fun _ => Scan.Unopened)
    (fun _ _ _ _ => Scan.Unopened.step?) start steps).finish? done
  cases cut
  refine ⟨fun t inside => unopened.1.plain t (List.mem_reverse.mp inside), ?_⟩
  rw [List.head?_reverse]
  exact unopened.1.first

/-- A text that does not start with an opening bracket writes no array and no object. -/
theorem not_isContainer_of_head {s : String} {c : Char} {cs : List Char} (text : s.toList = c :: cs)
    (visible : isSpace c = false) (noArray : c ≠ '[') (noObject : c ≠ '\x7b') {v : Json}
    (read : ofText? s = some v) : v.isContainer = false := by
  obtain ⟨ts, cut, made⟩ := Option.bind_eq_some_iff.mp read
  obtain ⟨b, built, whole⟩ := Option.bind_eq_some_iff.mp made
  obtain ⟨plain, first⟩ := tokens?_unopened visible noArray noObject (text ▸ cut)
  cases ts with
  | nil =>
      cases built
      cases whole
  | cons t ts =>
      rw [List.foldlM_cons] at built
      cases t with
      | atom w =>
          rw [Build.foldlM_nothing built] at whole
          cases whole
          simpa [Token.isPlain] using plain _ List.mem_cons_self
      | openArray | openObject => cases first _ rfl
      | _ => cases built

end CodeSearch.Json
