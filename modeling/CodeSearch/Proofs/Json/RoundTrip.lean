import CodeSearch.Proofs.Json.Number
import CodeSearch.Proofs.Json.Steps
import CodeSearch.Proofs.Text

/-! # Reading what was written

The text of a value is cut into the tokens that the value consists of, and from these the value is
put together again. A number and a word end only where a character follows that is of no number and
no word; in the text of a value such a character always does, since commas, colons and brackets stand
between the values.
-/

namespace CodeSearch.Json

/-! ## Tokens of values -/

mutual

/-- The tokens that a value consists of. -/
def tokensOf : Json → List Token
  | arr items => .openArray :: (itemTokens true items ++ [.closeArray])
  | obj members => .openObject :: (memberTokens true members ++ [.closeObject])
  | v => [.atom v]

def itemTokens (isFirst : Bool) : List Json → List Token
  | [] => []
  | v :: vs => (if isFirst then [] else [.comma]) ++ (tokensOf v ++ itemTokens false vs)

def memberTokens (isFirst : Bool) : List (String × Json) → List Token
  | [] => []
  | (key, v) :: vs =>
    (if isFirst then [] else [.comma]) ++
      .atom (str key) :: .colon :: (tokensOf v ++ memberTokens false vs)

end

/-- A value that is read back from its text: its integers fit into 64 bits, its floats are read back
    from their digits, its members are in order, and no more than `depth` arrays and objects are
    inside each other. -/
inductive Legible : (depth : Nat) → Json → Prop
  | null {depth : Nat} : Legible depth null
  | bool {depth : Nat} (b : Bool) : Legible depth (bool b)
  | int {depth : Nat} {n : Int} (low : -((Nat.pow 2 63 : Nat) : Int) ≤ n) (high : n ≤ maxWord) :
      Legible depth (int n)
  | float {depth : Nat} {x : Float} (back : number? (render (float x)).toList = some (float x)) :
      Legible depth (float x)
  | str {depth : Nat} (s : String) : Legible depth (str s)
  | arr {depth : Nat} {vs : List Json} (items : ∀ v ∈ vs, Legible depth v) :
      Legible (depth + 1) (arr vs)
  | obj {depth : Nat} {vs : List (String × Json)} (sorted : vs.Pairwise fun a b => a.1 < b.1)
      (members : ∀ m ∈ vs, Legible depth m.2) : Legible (depth + 1) (obj vs)

/-! ## Cutting texts -/

/-- A text is cut into tokens, whatever tokens come before. -/
def CutInto (cs : List Char) (out : List Token) : Prop :=
  ∀ ts, ∃ s, cs.foldlM Scan.step? ⟨ts, .between⟩ = some s ∧
    s.finish? = some ⟨out.reverse ++ ts, .between⟩

/-- A text that does not continue a number or a word. -/
def Apart (cs : List Char) : Prop :=
  ∀ c ∈ cs.head?, isNumberChar c = false ∧ c.isLower = false

section

variable {a b : List Char} {x y : List Token}

theorem Scan.step?_of_finish? {s : Scan} {ts : List Token} {c : Char}
    (done : s.finish? = some ⟨ts, .between⟩) (apart : isNumberChar c = false ∧ c.isLower = false) :
    s.step? c = Scan.start? ts c := by
  obtain ⟨tokens, mode⟩ := s
  cases mode with
  | between =>
      cases done
      rfl
  | number seen => simp [Scan.step?, apart.1, done]
  | word seen => simp [Scan.step?, apart.2, done]
  | _ => cases done

theorem Apart.of_mark {c : Char} {cs : List Char} (number : isNumberChar c = false)
    (word : c.isLower = false) : Apart (c :: cs) := by
  rintro d ⟨⟩
  exact ⟨number, word⟩

theorem CutInto.nil : CutInto [] [] :=
  fun _ => ⟨_, rfl, rfl⟩

theorem CutInto.append (first : CutInto a x) (second : CutInto b y) (apart : Apart b) :
    CutInto (a ++ b) (x ++ y) := by
  intro ts
  obtain ⟨s, read, done⟩ := first ts
  cases b with
  | nil =>
      obtain ⟨t, kept, same⟩ := second (x.reverse ++ ts)
      cases kept
      refine ⟨s, by rw [List.append_nil, read], done.trans ?_⟩
      rw [List.reverse_append, List.append_assoc]
      exact same
  | cons c cs =>
      obtain ⟨t, readMore, doneMore⟩ := second (x.reverse ++ ts)
      have same : s.step? c = Scan.step? ⟨x.reverse ++ ts, .between⟩ c :=
        Scan.step?_of_finish? done (apart c rfl)
      refine ⟨t, ?_, by rw [doneMore, List.reverse_append, List.append_assoc]⟩
      rw [List.foldlM_cons, ← same] at readMore
      rw [List.foldlM_append, read]
      exact (List.foldlM_cons ..).trans readMore

/-- A comma, colon or bracket before a text is a token of its own. -/
theorem CutInto.mark {c : Char} {t : Token}
    (mark : ∀ ts, Scan.start? ts c = some ⟨t :: ts, .between⟩) (rest : CutInto b y) :
    CutInto (c :: b) (t :: y) := by
  intro ts
  obtain ⟨s, read, done⟩ := rest (t :: ts)
  refine ⟨s, ?_, by rw [done, List.reverse_cons, List.append_assoc]; rfl⟩
  rw [List.foldlM_cons]
  exact (congrArg (· >>= _) (mark ts)).trans read

end

/-! ## Strings -/

theorem hexValue?_digitChar : ∀ n < 16, hexValue? (Nat.digitChar n) = some n := by
  decide

/-- A control character is written by the four digits of its number, of which two are zero. -/
theorem Scan.foldlM_control (ts : List Token) (seen : List Char) {c : Char} (h : c.toNat < 0x20) :
    ['\\', 'u', '0', '0', Nat.digitChar (c.toNat / 16), Nat.digitChar (c.toNat % 16)].foldlM
      Scan.step? ⟨ts, .string seen⟩ = some ⟨ts, .string (c :: seen)⟩ := by
  have high := hexValue?_digitChar (c.toNat / 16) (by omega)
  have low := hexValue?_digitChar (c.toNat % 16) (by omega)
  have unit : Mode.ofUnit? seen c.toNat none = some (.string (c :: seen)) := by
    have noLead : ¬0xD800 ≤ c.toNat := by omega
    have noTrail : ¬0xDC00 ≤ c.toNat := by omega
    simp [Mode.ofUnit?, noLead, noTrail, Char.ofNat_toNat]
  have zeros : ['\\', 'u', '0', '0'].foldlM Scan.step? ⟨ts, .string seen⟩ =
      some ⟨ts, .hex seen 2 0 none⟩ := rfl
  have digits : [Nat.digitChar (c.toNat / 16), Nat.digitChar (c.toNat % 16)].foldlM
      Scan.step? ⟨ts, .hex seen 2 0 none⟩ = some ⟨ts, .string (c :: seen)⟩ := by
    simp [Scan.step?, Mode.inString?, high, low, unit, Nat.div_add_mod']
  exact (List.foldlM_append (l := ['\\', 'u', '0', '0'])).trans (by rw [zeros]; exact digits)

theorem Scan.foldlM_escape (ts : List Token) (seen : List Char) (c : Char) :
    (escape c).foldlM Scan.step? ⟨ts, .string seen⟩ = some ⟨ts, .string (c :: seen)⟩ := by
  have named {d : Char} {code : List Char} (same : (c == d) = true)
      (reads : code.foldlM Scan.step? ⟨ts, .string seen⟩ = some ⟨ts, .string (d :: seen)⟩) :
      code.foldlM Scan.step? ⟨ts, .string seen⟩ = some ⟨ts, .string (c :: seen)⟩ := by
    rw [beq_iff_eq.mp same]
    exact reads
  by_cases quotation : (c == '"') = true
  · rw [escape, if_pos quotation]
    exact named quotation rfl
  by_cases backslash : (c == '\\') = true
  · rw [escape, if_neg quotation, if_pos backslash]
    exact named backslash rfl
  unfold escape
  rw [if_neg quotation, if_neg backslash]
  -- Five control characters have a short form.
  iterate 5
    split
    · exact named ‹_› rfl
  split
  · rename_i control
    exact foldlM_control ts seen control
  · rename_i printed
    simp [Scan.step?, Mode.inString?, quotation, backslash, printed]

theorem cutInto_quote (s : String) : CutInto (quote s).toList [.atom (str s)] := by
  have inside (ts : List Token) (cs seen : List Char) :
      (cs.flatMap escape).foldlM Scan.step? ⟨ts, .string seen⟩ =
        some ⟨ts, .string (cs.reverse ++ seen)⟩ := by
    induction cs generalizing seen with
    | nil => rfl
    | cons c cs ih =>
        rw [List.flatMap_cons, List.foldlM_append, Scan.foldlM_escape, List.reverse_cons,
          List.append_assoc]
        exact ih (c :: seen)
  intro ts
  refine ⟨⟨.atom (str s) :: ts, .between⟩, ?_, rfl⟩
  have opened : Scan.step? ⟨ts, .between⟩ '"' = some ⟨ts, .string []⟩ := rfl
  have closed : Scan.step? ⟨ts, .string (s.toList.reverse ++ [])⟩ '"' =
      some ⟨.atom (str s) :: ts, .between⟩ := by
    simp [Scan.step?, String.ofList_toList]
  calc
    (quote s).toList.foldlM Scan.step? ⟨ts, .between⟩ =
        (s.toList.flatMap escape ++ ['"']).foldlM Scan.step? ⟨ts, .string []⟩ := by
      rw [quote, String.toList_ofList, List.cons_append, List.foldlM_cons, opened]
      rfl
    _ = ['"'].foldlM Scan.step? ⟨ts, .string (s.toList.reverse ++ [])⟩ := by
      rw [List.foldlM_append, inside]
      rfl
    _ = some ⟨.atom (str s) :: ts, .between⟩ := by
      rw [List.foldlM_cons, closed]
      rfl

/-! ## Numbers and words -/

theorem Scan.start?_number (ts : List Token) {c : Char} (begins : (c.isDigit || c == '-') = true) :
    Scan.start? ts c = some ⟨ts, .number [c]⟩ := by
  have visible : isSpace c = false := by
    refine Bool.eq_false_iff.mpr fun space => ?_
    rcases isSpace_iff.mp space with ((rfl | rfl) | rfl) | rfl
    all_goals exact absurd begins (by decide)
  have unquoted : (c == '"') = false := by
    refine beq_eq_false_iff_ne.mpr ?_
    rintro rfl
    exact absurd begins (by decide)
  simp only [start?, visible, unquoted, begins, Bool.false_eq_true, if_false, if_true]

theorem cutInto_number {cs : List Char} {v : Json} (read : number? cs = some v) :
    CutInto cs [.atom v] := by
  have inside (ts : List Token) (cs seen : List Char) (numeric : Numeric cs) :
      cs.foldlM Scan.step? ⟨ts, .number seen⟩ = some ⟨ts, .number (cs.reverse ++ seen)⟩ := by
    induction cs generalizing seen with
    | nil => rfl
    | cons c cs ih =>
        obtain ⟨first, rest⟩ := List.forall_mem_cons.mp numeric
        have stepped : Scan.step? ⟨ts, .number seen⟩ c = some ⟨ts, .number (c :: seen)⟩ :=
          if_pos first
        rw [List.foldlM_cons, stepped, List.reverse_cons, List.append_assoc]
        exact ih (c :: seen) rest
  obtain ⟨numeric, first, rest, rfl, begins⟩ := number?_numeric read
  intro ts
  have started : Scan.step? ⟨ts, .between⟩ first = some ⟨ts, .number [first]⟩ :=
    Scan.start?_number ts begins
  refine ⟨⟨ts, .number (rest.reverse ++ [first])⟩, ?_, by simp [Scan.finish?, read]⟩
  rw [List.foldlM_cons, started]
  exact inside ts rest [first] (List.forall_mem_cons.mp numeric).2

theorem cutInto_null : CutInto "null".toList [.atom null] :=
  fun _ => ⟨_, rfl, rfl⟩

theorem cutInto_bool (b : Bool) :
    CutInto (if b then "true" else "false").toList [.atom (bool b)] := by
  cases b with
  | true => exact fun _ => ⟨_, rfl, rfl⟩
  | false => exact fun _ => ⟨_, rfl, rfl⟩

/-! ## Texts of values -/

/-- The characters of a text that is written in pieces. -/
def chars (ps : List String) : List Char :=
  ps.flatMap String.toList

@[simp] theorem chars_cons (p : String) (ps : List String) :
    chars (p :: ps) = p.toList ++ chars ps :=
  List.flatMap_cons

theorem toList_render (v : Json) : (render v).toList = chars (pieces v []) :=
  String.toList_join

/-- A text is cut behind a value when what follows does not continue the value. -/
def Joins (v : Json) : Prop :=
  ∀ rest out, CutInto (chars rest) out → Apart (chars rest) →
    CutInto (chars (pieces v rest)) (tokensOf v ++ out)

section

variable {rest : List String} {out : List Token}

theorem apart_itemPieces (vs : List Json) (apart : Apart (chars rest)) :
    Apart (chars (itemPieces false vs rest)) := by
  cases vs with
  | nil => exact apart
  | cons v vs => exact .of_mark rfl rfl

theorem apart_memberPieces (vs : List (String × Json)) (apart : Apart (chars rest)) :
    Apart (chars (memberPieces false vs rest)) := by
  cases vs with
  | nil => exact apart
  | cons v vs => exact .of_mark rfl rfl

theorem CutInto.comma {b : List Char} {y : List Token} (isFirst : Bool) (cut : CutInto b y) :
    CutInto ((if isFirst then "" else ",").toList ++ b)
      ((if isFirst then [] else [.comma]) ++ y) := by
  cases isFirst with
  | true => exact cut
  | false => exact .mark (fun _ => rfl) cut

theorem cutInto_itemPieces {vs : List Json} (items : ∀ v ∈ vs, Joins v) (isFirst : Bool)
    (cut : CutInto (chars rest) out) (apart : Apart (chars rest)) :
    CutInto (chars (itemPieces isFirst vs rest)) (itemTokens isFirst vs ++ out) := by
  induction vs generalizing isFirst with
  | nil => exact cut
  | cons v vs ih =>
      obtain ⟨first, others⟩ := List.forall_mem_cons.mp items
      simp only [itemPieces, itemTokens, chars_cons, List.append_assoc]
      exact .comma isFirst (first _ _ (ih others false) (apart_itemPieces vs apart))

theorem cutInto_memberPieces {vs : List (String × Json)} (members : ∀ m ∈ vs, Joins m.2)
    (isFirst : Bool) (cut : CutInto (chars rest) out) (apart : Apart (chars rest)) :
    CutInto (chars (memberPieces isFirst vs rest)) (memberTokens isFirst vs ++ out) := by
  induction vs generalizing isFirst with
  | nil => exact cut
  | cons m vs ih =>
      obtain ⟨key, v⟩ := m
      obtain ⟨first, others⟩ := List.forall_mem_cons.mp members
      simp only [memberPieces, memberTokens, chars_cons, List.append_assoc, List.cons_append]
      refine .comma isFirst ((cutInto_quote key).append (.mark (fun _ => rfl) ?_) ?_)
      · exact first _ _ (ih others false) (apart_memberPieces vs apart)
      · exact .of_mark rfl rfl

/-- Any value whose numbers are read back is cut into its tokens. -/
theorem Legible.joins {depth : Nat} {v : Json} (legible : Legible depth v) : Joins v := by
  have ofAtom {p : String} {v : Json} {rest : List String} {out : List Token}
      (alone : CutInto p.toList [.atom v]) (cut : CutInto (chars rest) out)
      (apart : Apart (chars rest)) : CutInto (chars (p :: rest)) (.atom v :: out) :=
    chars_cons p rest ▸ alone.append cut apart
  induction legible with
  | null => exact fun rest out => ofAtom cutInto_null
  | bool b => exact fun rest out => ofAtom (cutInto_bool b)
  | int low high => exact fun rest out => ofAtom (cutInto_number (number?_int low high))
  | float back =>
      have alone : chars [] = [] := rfl
      rw [toList_render, pieces, chars_cons, alone, List.append_nil] at back
      exact fun rest out => ofAtom (cutInto_number back)
  | str s => exact fun rest out => ofAtom (cutInto_quote s)
  | arr items ih =>
      intro rest out cut apart
      simp only [pieces, tokensOf, chars_cons, List.append_assoc, List.cons_append, List.nil_append]
      refine .mark (fun _ => rfl) (cutInto_itemPieces ih true (chars_cons .. ▸ ?_) ?_)
      · exact .mark (fun _ => rfl) cut
      · exact .of_mark rfl rfl
  | obj sorted members ih =>
      intro rest out cut apart
      simp only [pieces, tokensOf, chars_cons, List.append_assoc, List.cons_append, List.nil_append]
      refine .mark (fun _ => rfl) (cutInto_memberPieces ih true (chars_cons .. ▸ ?_) ?_)
      · exact .mark (fun _ => rfl) cut
      · exact .of_mark rfl rfl

end

/-- The text of a value is cut into the tokens of the value. -/
theorem tokens?_render {depth : Nat} {v : Json} (legible : Legible depth v) :
    tokens? (render v).toList = some (tokensOf v) := by
  have cut := legible.joins [] [] .nil nofun
  rw [← toList_render, List.append_nil] at cut
  obtain ⟨s, read, done⟩ := cut []
  rw [List.append_nil] at done
  have start : (render v).toList.foldlM Scan.step? {} = some s := read
  simp only [tokens?, start, bind, Option.bind, done, List.reverse_reverse]

/-! ## Putting tokens together -/

theorem insert_last {key : String} {v : Json} {ms : List (String × Json)}
    (last : ∀ m ∈ ms, m.1 < key) : insert key v ms = ms ++ [(key, v)] := by
  induction ms with
  | nil => rfl
  | cons m ms ih =>
      obtain ⟨before, others⟩ := List.forall_mem_cons.mp last
      have notAfter : ¬key < m.1 := String.lt_asymm before
      have different : key ≠ m.1 := fun same => String.lt_irrefl _ (same ▸ before)
      rw [insert, if_neg notAfter, if_neg different, ih others]
      rfl

/-- A value is put together where there is room for what is inside of it. -/
def Builds (depth : Nat) (v : Json) : Prop :=
  ∀ stack, stack.length + depth ≤ maxDepth →
    (tokensOf v).foldlM Build.step? ⟨stack, .value⟩ = some (Build.plug stack v)

theorem foldlM_firstItem (stack : List Frame) (v : Json) :
    (tokensOf v).foldlM Build.step? ⟨stack, .firstItem⟩ =
      (tokensOf v).foldlM Build.step? ⟨stack, .value⟩ := by
  have first {t : Token} (more : List Token)
      (same : Build.step? ⟨stack, .firstItem⟩ t = Build.step? ⟨stack, .value⟩ t) :
      (t :: more).foldlM Build.step? ⟨stack, .firstItem⟩ =
        (t :: more).foldlM Build.step? ⟨stack, .value⟩ := by
    rw [List.foldlM_cons, List.foldlM_cons, same]
  cases v with
  | arr | obj | _ => exact first _ (by rcases stack with _ | ⟨_ | _, _⟩ <;> rfl)

section

variable {depth : Nat} {stack : List Frame}

theorem foldlM_items {vs : List Json} (items : ∀ v ∈ vs, Builds depth v)
    (room : stack.length + 1 + depth ≤ maxDepth) (isFirst : Bool) (seen : List Json)
    (start : isFirst = true → seen = []) :
    (itemTokens isFirst vs ++ [Token.closeArray]).foldlM Build.step?
        ⟨.array seen :: stack, if isFirst then .firstItem else .more⟩ =
      some (Build.plug stack (arr (seen.reverse ++ vs))) := by
  -- Behind the first item there is always a comma, so the items that follow are read from `.more`.
  induction vs generalizing isFirst seen with
  | nil =>
      cases isFirst with
      | true =>
          rw [start rfl]
          rfl
      | false =>
          rw [List.append_nil]
          rfl
  | cons v vs ih =>
      obtain ⟨first, others⟩ := List.forall_mem_cons.mp items
      have rest := ih others false (v :: seen) nofun
      rw [List.reverse_cons, List.append_assoc] at rest
      have both : (tokensOf v ++ (itemTokens false vs ++ [Token.closeArray])).foldlM Build.step?
          ⟨.array seen :: stack, .value⟩ =
            some (Build.plug stack (arr (seen.reverse ++ v :: vs))) := by
        rw [List.foldlM_append, first (.array seen :: stack) room]
        exact rest
      rw [itemTokens, List.append_assoc, List.append_assoc]
      cases isFirst with
      | true =>
          rw [if_pos rfl, if_pos rfl, List.nil_append]
          rw [List.foldlM_append] at both ⊢
          exact (congrArg (· >>= _) (foldlM_firstItem ..)).trans both
      | false => exact both

/-- A key, a colon and a value become a member, at the start of an object or behind a comma. -/
theorem foldlM_member {next : Expect} (atKey : next = .firstKey ∨ next = .key) {key : String}
    {v : Json} (value : Builds depth v) (room : stack.length + 1 + depth ≤ maxDepth)
    (ms : List (String × Json)) (before : String) (more : List Token) :
    (.atom (str key) :: .colon :: (tokensOf v ++ more)).foldlM Build.step?
        ⟨.object ms before :: stack, next⟩ =
      more.foldlM Build.step? ⟨.object (insert key v ms) key :: stack, .more⟩ := by
  have read : (tokensOf v ++ more).foldlM Build.step? ⟨.object ms key :: stack, .value⟩ =
      more.foldlM Build.step? ⟨.object (insert key v ms) key :: stack, .more⟩ := by
    rw [List.foldlM_append, value (.object ms key :: stack) room]
    rfl
  rcases atKey with rfl | rfl
  · exact read
  · exact read

theorem foldlM_members {vs : List (String × Json)} (members : ∀ m ∈ vs, Builds depth m.2)
    (room : stack.length + 1 + depth ≤ maxDepth) (isFirst : Bool) (ms : List (String × Json))
    (start : isFirst = true → ms = []) (before : String)
    (sorted : (ms ++ vs).Pairwise fun a b => a.1 < b.1) :
    (memberTokens isFirst vs ++ [Token.closeObject]).foldlM Build.step?
        ⟨.object ms before :: stack, if isFirst then .firstKey else .more⟩ =
      some (Build.plug stack (obj (ms ++ vs))) := by
  induction vs generalizing isFirst ms before with
  | nil =>
      cases isFirst with
      | true =>
          rw [start rfl]
          rfl
      | false =>
          rw [List.append_nil]
          rfl
  | cons m vs ih =>
      obtain ⟨key, v⟩ := m
      obtain ⟨first, others⟩ := List.forall_mem_cons.mp members
      have behind := (List.pairwise_append.mp sorted).2.2
      have last : insert key v ms = ms ++ [(key, v)] :=
        insert_last fun m inside => behind m inside _ List.mem_cons_self
      have rest := ih others false (ms ++ [(key, v)]) nofun key (by rwa [List.append_assoc])
      rw [List.append_assoc] at rest
      have both {next : Expect} (atKey : next = .firstKey ∨ next = .key) :=
        (foldlM_member atKey first room ms before _).trans (last ▸ rest)
      rw [memberTokens, List.append_assoc, List.cons_append, List.cons_append, List.append_assoc]
      cases isFirst with
      | true => exact both (.inl rfl)
      | false => exact both (.inr rfl)

end

theorem Legible.builds {depth : Nat} {v : Json} (legible : Legible depth v) : Builds depth v := by
  induction legible with
  | arr items ih =>
      intro stack room
      have below : stack.length < maxDepth := by omega
      have opened : Build.step? ⟨stack, .value⟩ .openArray =
          some ⟨.array [] :: stack, .firstItem⟩ := if_pos below
      rw [tokensOf, List.foldlM_cons, opened]
      exact foldlM_items ih (by omega) true [] (fun _ => rfl)
  | obj sorted members ih =>
      intro stack room
      have below : stack.length < maxDepth := by omega
      have opened : Build.step? ⟨stack, .value⟩ .openObject =
          some ⟨.object [] "" :: stack, .firstKey⟩ := if_pos below
      rw [tokensOf, List.foldlM_cons, opened]
      exact foldlM_members ih (by omega) true [] (fun _ => rfl) "" sorted
  | _ => exact fun _ _ => rfl

/-- A value is read back from its text. -/
theorem ofText?_render {v : Json} (legible : Legible maxDepth v) : ofText? (render v) = some v := by
  have built : (tokensOf v).foldlM Build.step? {} = some { next := .nothing v } :=
    legible.builds [] (Nat.le_of_eq (Nat.zero_add _))
  simp only [ofText?, tokens?_render legible, bind, Option.bind, built]

/-! ## Blanks around texts -/

mutual

theorem suffix_pieces (v : Json) (rest : List String) : rest <:+ pieces v rest := by
  cases v with
  | arr items =>
      exact ((List.suffix_cons ..).trans (suffix_itemPieces true items _)).trans
        (List.suffix_cons ..)
  | obj members =>
      exact ((List.suffix_cons ..).trans (suffix_memberPieces true members _)).trans
        (List.suffix_cons ..)
  | _ => exact List.suffix_cons ..

theorem suffix_itemPieces (isFirst : Bool) (vs : List Json) (rest : List String) :
    rest <:+ itemPieces isFirst vs rest := by
  cases vs with
  | nil => exact List.suffix_refl _
  | cons v vs =>
      exact ((suffix_itemPieces false vs rest).trans (suffix_pieces v _)).trans
        (List.suffix_cons ..)

theorem suffix_memberPieces (isFirst : Bool) (vs : List (String × Json)) (rest : List String) :
    rest <:+ memberPieces isFirst vs rest := by
  cases vs with
  | nil => exact List.suffix_refl _
  | cons m vs =>
      obtain ⟨key, v⟩ := m
      have value := (suffix_memberPieces false vs rest).trans (suffix_pieces v _)
      exact ((value.trans (List.suffix_cons ..)).trans (List.suffix_cons ..)).trans
        (List.suffix_cons ..)

end

theorem trim_render {v : Json} (container : v.isContainer = true) :
    Text.trim (render v) = render v := by
  have around {first last : String} {ps : List String} (suffix : [last] <:+ ps)
      (text : pieces v [] = first :: ps) :
      ∃ cs, (render v).toList = first.toList ++ (cs ++ last.toList) := by
    obtain ⟨before, rfl⟩ := suffix
    exact ⟨chars before, by simp [toList_render, text, chars]⟩
  cases v with
  | arr items =>
      obtain ⟨cs, text⟩ := around (suffix_itemPieces true items _) rfl
      exact Text.trim_between (text : _ = '[' :: (cs ++ [']'])) rfl rfl
  | obj members =>
      obtain ⟨cs, text⟩ := around (suffix_memberPieces true members _) rfl
      exact Text.trim_between (text : _ = '\x7b' :: (cs ++ ['\x7d'])) rfl rfl
  | _ => cases container

end CodeSearch.Json
