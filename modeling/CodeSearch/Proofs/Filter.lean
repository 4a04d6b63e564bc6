import CodeSearch.Filter.Conjunction
import CodeSearch.Index.State
import CodeSearch.Proofs.Except
import CodeSearch.Proofs.Score

/-! # What filters ask for

A filter asks for a trait of a symbol, or for matches of patterns. A conjunction lets those symbols
pass that have every trait it asks for, and in which every pattern is matched with every confidence
that is asked for. Filters that a question implies count where none of their type is given.
-/

namespace CodeSearch

/-- Whether a symbol has the trait that a filter asks for. Matches of patterns are no trait. -/
def Filter.Holds (s : Symbol) : Filter → Prop
  | .language l => s.language = l
  | .pathInclude text => ∃ glob, Glob.ofText text = .ok glob ∧ glob.accepts s.unit.path = true
  | .pathExclude text => ∃ glob, Glob.ofText text = .ok glob ∧ glob.accepts s.unit.path = false
  | .author name =>
    ∃ author, s.author = some author ∧ Text.eqIgnoringAsciiCase author (Text.trim name) = true
  | .kind k => s.kind = k
  | .dateRange earliest latest =>
    (∀ t, earliest = some t → t.le s.modifiedAt = true) ∧
      ∀ t, latest = some t → s.modifiedAt.le t = true
  | .directory dir => FilterSet.isBelow dir s.unit.path = true
  | .patternType _ | .minConfidence _ => True

/-- Whether matches contain every pattern that is asked for, with every confidence that is. Where
    only a confidence is asked for, any match will do. -/
structure PatternsHold (asked : Filter → Prop) (found : List PatternMatch) : Prop where
  pattern : ∀ p, asked (.patternType p) →
    ∃ m ∈ found, m.pattern = p ∧ ∀ c, asked (.minConfidence c) → c ≤ m.confidence
  confidence : ∀ c, asked (.minConfidence c) →
    ∃ m ∈ found, ∀ c, asked (.minConfidence c) → c ≤ m.confidence

/-- The filters that count: those that are given, and those implied ones of whose type none is. -/
def InForce (explicit implied : List Filter) (f : Filter) : Prop :=
  f ∈ explicit ∨ f ∈ implied ∧ f.type ∉ explicit.map (·.type)

namespace FilterSet

/-! ## Entries -/

theorem globOf_ok {text : String} {glob : Glob} (made : Filter.globOf text = .ok glob) :
    Glob.ofText text = .ok glob := by
  unfold Filter.globOf at made
  split at made
  · rename_i g read
    cases made
    exact read
  · cases made

/-- An entry lets exactly those symbols pass that have the trait of its filter. -/
def Decides (e : Filter × Option Glob) : Prop :=
  ∀ s : Symbol, admitsEntry s.metadata e = true ↔ e.1.Holds s

theorem decides_glob {text : String} {glob : Glob} (read : Glob.ofText text = .ok glob) :
    Decides (.pathInclude text, some glob) ∧ Decides (.pathExclude text, some glob) := by
  have only {answer : Bool} (s : Symbol) : glob.accepts s.unit.path = answer ↔
      ∃ g, Glob.ofText text = .ok g ∧ g.accepts s.unit.path = answer := by
    rw [read]
    simp only [Except.ok.injEq, exists_eq_left']
  constructor
  · intro s
    exact only s
  · intro s
    refine Iff.trans ?_ (only s)
    simp [admitsEntry, Symbol.metadata]

theorem decides_plain {f : Filter} (noInclude : ∀ text, f ≠ .pathInclude text)
    (noExclude : ∀ text, f ≠ .pathExclude text) : Decides (f, none) := by
  intro s
  cases f with
  | language l => exact beq_iff_eq
  | pathInclude text => exact absurd rfl (noInclude text)
  | pathExclude text => exact absurd rfl (noExclude text)
  | author name => exact Option.any_eq_true ..
  | kind k => exact beq_iff_eq
  | dateRange earliest latest =>
      refine (Bool.and_eq_true _ _).to_iff.trans ?_
      rw [Option.all_eq_true, Option.all_eq_true]
      rfl
  | directory dir => exact Iff.rfl
  | patternType p => exact iff_of_true rfl trivial
  | minConfidence c => exact iff_of_true rfl trivial

theorem entryOf_ok {f : Filter} {e : Filter × Option Glob} (made : entryOf f = .ok e) :
    e.1 = f ∧ f.validate = .ok () ∧ Decides e := by
  cases valid : f.validate with
  | error cause =>
      simp only [entryOf, valid, bind, Except.bind] at made
      cases made
  | ok _ =>
      simp only [entryOf, valid, bind, Except.bind, pure, Except.pure] at made
      cases f with
      | pathInclude text =>
          cases read : Filter.globOf text with
          | error cause => simp [read] at made
          | ok glob =>
              simp only [read, Except.ok.injEq] at made
              exact made ▸ ⟨rfl, rfl, (decides_glob (globOf_ok read)).1⟩
      | pathExclude text =>
          cases read : Filter.globOf text with
          | error cause => simp [read] at made
          | ok glob =>
              simp only [read, Except.ok.injEq] at made
              exact made ▸ ⟨rfl, rfl, (decides_glob (globOf_ok read)).2⟩
      | _ =>
          cases made
          exact ⟨rfl, rfl, decides_plain nofun nofun⟩

theorem entryOf_plain {f : Filter} (valid : f.validate = .ok ())
    (noInclude : ∀ text, f ≠ .pathInclude text) (noExclude : ∀ text, f ≠ .pathExclude text) :
    entryOf f = .ok (f, none) := by
  simp only [entryOf, valid, bind, Except.bind]
  cases f with
  | pathInclude text => exact absurd rfl (noInclude text)
  | pathExclude text => exact absurd rfl (noExclude text)
  | _ => rfl

/-! ## Conjunctions -/

/-- A filter alone, if it is valid and needs no glob, decides what passes. -/
theorem ofList_alone {f : Filter} (valid : f.validate = .ok ())
    (noInclude : ∀ text, f ≠ .pathInclude text) (noExclude : ∀ text, f ≠ .pathExclude text) :
    ∃ set, ofList [f] = .ok set ∧ ∀ m, set.matchesMetadata m = admitsEntry m (f, none) := by
  refine ⟨⟨[(f, none)]⟩, ?_, fun m => ?_⟩
  · rw [ofList, mapM_singleton, entryOf_plain valid noInclude noExclude]
    rfl
  · rw [matchesMetadata, List.all_cons, List.all_nil, Bool.and_true]

section

variable {given : List Filter} {set : FilterSet}

theorem mapM_entryOf {entries : List (Filter × Option Glob)}
    (made : given.mapM entryOf = .ok entries) :
    entries.map (·.1) = given ∧ ∀ e ∈ entries, e.1.validate = .ok () ∧ Decides e := by
  induction given generalizing entries with
  | nil =>
      cases made
      exact ⟨rfl, fun e inside => absurd inside List.not_mem_nil⟩
  | cons f rest ih =>
      rw [List.mapM_cons] at made
      cases first : entryOf f with
      | error cause => simp [first, bind, Except.bind] at made
      | ok e =>
          cases others : rest.mapM entryOf with
          | error cause => simp [first, others, bind, Except.bind] at made
          | ok more =>
              simp only [first, others, bind, Except.bind, pure, Except.pure, Except.ok.injEq] at made
              obtain ⟨same, valid, decides⟩ := entryOf_ok first
              obtain ⟨sames, all⟩ := ih others
              subst made
              rw [List.map_cons, same, sames]
              exact ⟨rfl, List.forall_mem_cons.mpr ⟨⟨same ▸ valid, decides⟩, all⟩⟩

theorem ofList_ok (made : ofList given = .ok set) :
    set.filters = given ∧ ∀ e ∈ set.entries, e.1.validate = .ok () ∧ Decides e := by
  cases entries : given.mapM entryOf with
  | error cause => simp [ofList, entries, bind, Except.bind] at made
  | ok es =>
      simp only [ofList, entries, bind, Except.bind, pure, Except.pure, Except.ok.injEq] at made
      exact made ▸ mapM_entryOf entries

theorem ofList_valid (made : ofList given = .ok set) {f : Filter} (asked : f ∈ given) :
    f.validate = .ok () := by
  obtain ⟨same, all⟩ := ofList_ok made
  rw [← same] at asked
  obtain ⟨e, inside, rfl⟩ := List.mem_map.mp asked
  exact (all e inside).1

/-- A symbol passes a conjunction when it has every trait that is asked for. -/
theorem matchesMetadata_iff (made : ofList given = .ok set) (s : Symbol) :
    set.matchesMetadata s.metadata = true ↔ ∀ f ∈ given, f.Holds s := by
  obtain ⟨same, all⟩ := ofList_ok made
  rw [matchesMetadata, List.all_eq_true, ← same, filters, List.forall_mem_map]
  exact forall₂_congr fun e inside => (all e inside).2 s

/-- Without a filter that looks at metadata, all metadata pass. -/
theorem matchesMetadata_of_none (none : set.hasMetadataFilters = false) (m : Metadata) :
    set.matchesMetadata m = true := by
  rw [hasMetadataFilters, filters, List.any_map, List.any_eq_false] at none
  rw [matchesMetadata, List.all_eq_true]
  intro e inside
  have looks : e.1.type.looksAtPatterns = true := by simpa using none e inside
  obtain ⟨f, glob⟩ := e
  cases f with
  | patternType | minConfidence => rfl
  | _ => cases looks

/-! ## Patterns -/

theorem mem_wantedPatterns (made : ofList given = .ok set) {p : Pattern} :
    p ∈ set.wantedPatterns ↔ .patternType p ∈ given := by
  rw [wantedPatterns, (ofList_ok made).1, List.mem_filterMap]
  constructor
  · rintro ⟨f, inside, chosen⟩
    cases f with
    | patternType q =>
        cases chosen
        exact inside
    | _ => cases chosen
  · exact fun inside => ⟨_, inside, rfl⟩

/-- The confidences that are asked for. -/
def askedConfidences (filters : List Filter) : List Score :=
  filters.filterMap fun f => match f with
    | .minConfidence c => some c
    | _ => none

theorem mem_askedConfidences {c : Score} : c ∈ askedConfidences given ↔ .minConfidence c ∈ given := by
  rw [askedConfidences, List.mem_filterMap]
  constructor
  · rintro ⟨f, inside, chosen⟩
    cases f with
    | minConfidence d =>
        cases chosen
        exact inside
    | _ => cases chosen
  · exact fun inside => ⟨_, inside, rfl⟩

/-- The greatest of some numbers is at most `x` when all of them are. -/
theorem greatest_le {first x : Score} {rest : List Score} (number : Score.IsNumber first)
    (numbers : ∀ c ∈ rest, Score.IsNumber c) :
    rest.foldl (fun a b => if a < b then b else a) first ≤ x ↔ first ≤ x ∧ ∀ c ∈ rest, c ≤ x := by
  induction rest generalizing first with
  | nil => simp
  | cons c rest ih =>
      obtain ⟨numberC, numbersRest⟩ := List.forall_mem_cons.mp numbers
      rw [List.foldl_cons, List.forall_mem_cons, ← and_assoc]
      by_cases less : first < c
      · rw [if_pos less, ih numberC numbersRest]
        refine and_congr_left fun _ => ⟨fun le => ⟨?_, le⟩, And.right⟩
        exact Score.number_le_trans (Score.number_le_of_lt less) le
      · rw [if_neg less, ih number numbersRest]
        refine and_congr_left fun _ => ⟨fun le => ⟨le, ?_⟩, And.left⟩
        exact Score.number_le_trans (Score.number_le_of_not_lt number numberC less) le

theorem confidence_number (made : ofList given = .ok set) {c : Score}
    (asked : .minConfidence c ∈ given) : Score.IsNumber c := by
  have valid : (if (c.isFinite && 0 ≤ c && c ≤ 1) = true then .ok ()
      else .error (FilterError.confidenceOutOfRange c)) = Except.ok () := ofList_valid made asked
  split at valid
  · rename_i range
    simp only [Bool.and_eq_true, decide_eq_true_eq] at range
    exact Score.isNumber_left range.2
  · cases valid

theorem leastConfidence_eq (made : ofList given = .ok set) :
    set.leastConfidence = match askedConfidences given with
      | [] => none
      | c :: rest => some (rest.foldl (fun a b => if a < b then b else a) c) := by
  rw [leastConfidence, (ofList_ok made).1]
  rfl

theorem leastConfidence_isNone (made : ofList given = .ok set) :
    set.leastConfidence.isNone = true ↔ ∀ c, .minConfidence c ∉ given := by
  rw [leastConfidence_eq made]
  simp only [← mem_askedConfidences]
  cases askedConfidences given with
  | nil => simp
  | cons c rest => exact ⟨nofun, fun none => absurd List.mem_cons_self (none c)⟩

/-- The confidence that a match needs is reached where all that are asked for are. -/
theorem leastConfidence_le (made : ofList given = .ok set) {x : Score} (positive : 0 ≤ x) :
    set.leastConfidence.getD 0 ≤ x ↔ ∀ c, .minConfidence c ∈ given → c ≤ x := by
  have number (c : Score) (inside : c ∈ askedConfidences given) : Score.IsNumber c :=
    confidence_number made (mem_askedConfidences.mp inside)
  rw [leastConfidence_eq made]
  simp only [← mem_askedConfidences]
  cases asked : askedConfidences given with
  | nil => exact ⟨fun _ c inside => absurd inside List.not_mem_nil, fun _ => positive⟩
  | cons c rest =>
      rw [asked] at number
      obtain ⟨first, others⟩ := List.forall_mem_cons.mp number
      rw [Option.getD_some, greatest_le first others, List.forall_mem_cons]

/-- Matches pass a conjunction when they contain what is asked for. -/
theorem matchesPatterns_iff (made : ofList given = .ok set) {found : List PatternMatch}
    (positive : ∀ m ∈ found, 0 ≤ m.confidence) :
    set.matchesPatterns found = true ↔ PatternsHold (· ∈ given) found := by
  have enough (m : PatternMatch) (inside : m ∈ found) :
      set.leastConfidence.getD 0 ≤ m.confidence ↔ ∀ c, .minConfidence c ∈ given → c ≤ m.confidence :=
    leastConfidence_le made (positive m inside)
  rw [matchesPatterns]
  split
  · rename_i none
    have unwanted (p : Pattern) : .patternType p ∉ given := by
      rw [← mem_wantedPatterns made, none]
      exact List.not_mem_nil
    rw [Bool.or_eq_true, leastConfidence_isNone made, List.any_eq_true]
    constructor
    · rintro (unasked | ⟨m, inside, reached⟩)
      · exact ⟨fun p asked => absurd asked (unwanted p), fun c asked => absurd asked (unasked c)⟩
      · refine ⟨fun p asked => absurd asked (unwanted p), fun _ _ => ⟨m, inside, ?_⟩⟩
        exact (enough m inside).mp (of_decide_eq_true reached)
    · intro holds
      by_cases asked : ∃ c, .minConfidence c ∈ given
      · obtain ⟨c, asked⟩ := asked
        obtain ⟨m, inside, reached⟩ := holds.confidence c asked
        exact .inr ⟨m, inside, decide_eq_true ((enough m inside).mpr reached)⟩
      · exact .inl (not_exists.mp asked)
  · rename_i wanted some
    simp only [List.all_eq_true, List.any_eq_true, Bool.and_eq_true, beq_iff_eq, decide_eq_true_eq,
      mem_wantedPatterns made]
    constructor
    · intro all
      have each (p : Pattern) (asked : .patternType p ∈ given) : ∃ m ∈ found, m.pattern = p ∧
          ∀ c, .minConfidence c ∈ given → c ≤ m.confidence := by
        obtain ⟨m, inside, same, reached⟩ := all p asked
        exact ⟨m, inside, same, (enough m inside).mp reached⟩
      obtain ⟨p, asked⟩ := List.exists_mem_of_ne_nil _ some
      obtain ⟨m, inside, -, reached⟩ := each p ((mem_wantedPatterns made).mp asked)
      exact ⟨each, fun _ _ => ⟨m, inside, reached⟩⟩
    · intro holds p asked
      obtain ⟨m, inside, same, reached⟩ := holds.pattern p asked
      exact ⟨m, inside, same, (enough m inside).mpr reached⟩

theorem hasPatternFilters_iff (made : ofList given = .ok set) :
    set.hasPatternFilters = true ↔ ∃ f ∈ given, f.type.looksAtPatterns = true := by
  rw [hasPatternFilters, (ofList_ok made).1, List.any_eq_true]

/-- Where no filter looks at patterns, any matches will do. -/
theorem patternsHold_of_none (none : ∀ f ∈ given, f.type.looksAtPatterns = false)
    (found : List PatternMatch) : PatternsHold (· ∈ given) found := by
  constructor
  · intro p asked
    cases none _ asked
  · intro c asked
    cases none _ asked

/-- Where a filter looks at patterns, some match is needed. -/
theorem found_of_patternsHold {asked : Filter → Prop} {f : Filter} (inForce : asked f)
    (looks : f.type.looksAtPatterns = true) {found : List PatternMatch}
    (holds : PatternsHold asked found) : found ≠ [] := by
  cases f with
  | patternType p =>
      obtain ⟨m, inside, -⟩ := holds.pattern p inForce
      exact List.ne_nil_of_mem inside
  | minConfidence c =>
      obtain ⟨m, inside, -⟩ := holds.confidence c inForce
      exact List.ne_nil_of_mem inside
  | _ => cases looks

end

/-! ## Implied filters -/

section

variable {explicit implied : List Filter} {f : Filter}

/-- The filters that count are the given ones with the implied ones that are not left out. -/
theorem mem_merge (exact : ∀ f ∈ implied, ∀ g, (f == g) = true → f = g) :
    f ∈ merge explicit implied ↔ InForce explicit implied f := by
  have each (filters : List Filter) : f ∈ implied.foldl (fun filters f =>
        if (explicit.map (·.type)).contains f.type || filters.contains f then filters
        else filters ++ [f]) filters ↔
      f ∈ filters ∨ f ∈ implied ∧ f.type ∉ explicit.map (·.type) := by
    induction implied generalizing filters with
    | nil => simp
    | cons first rest ih =>
        obtain ⟨exactFirst, exactRest⟩ := List.forall_mem_cons.mp exact
        rw [List.foldl_cons, ih exactRest, List.mem_cons]
        split
        · rename_i leftOut
          have there : f = first → f.type ∉ explicit.map (·.type) → f ∈ filters := by
            rintro rfl free
            rcases (Bool.or_eq_true _ _).to_iff.mp leftOut with given | listed
            · exact absurd (List.contains_iff_mem.mp given) free
            · obtain ⟨g, inside, equal⟩ := List.contains_iff_exists_mem_beq.mp listed
              exact exactFirst g equal ▸ inside
          tauto
        · rename_i added
          have free : f = first → f.type ∉ explicit.map (·.type) := by
            rintro rfl given
            exact added ((Bool.or_eq_true _ _).to_iff.mpr (.inl (List.contains_iff_mem.mpr given)))
          rw [List.mem_append, List.mem_singleton]
          tauto
  exact each explicit

end

end FilterSet

end CodeSearch
