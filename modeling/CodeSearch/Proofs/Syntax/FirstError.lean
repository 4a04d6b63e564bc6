import CodeSearch.Proofs.Syntax.ParseCache

/-! # The first syntax error

The search for an error looks into marked trees only, and keeps on a stack what it has not looked
into. When the nodes that are marked are those that are erroneous or missing or hold such a node, what
is left out holds none, and the stack in its order always holds the errors of the tree in preorder.
So the search finds the first one. The cache keeps what was found beside the tree, and a parse that
accepts no errors tells it whether the tree was made just now or before.
-/

namespace CodeSearch

/-- An entry that moves to the front brings in nothing new. -/
theorem Keyed.front_subset {κ α : Type} [DecidableEq κ] {entries : Keyed κ α} {key : κ} {a : α}
    (held : get? entries key = some a) : (key, a) :: erase entries key ⊆ entries :=
  List.cons_subset.mpr ⟨mem_of_get? held, List.filter_sublist.subset⟩

namespace Syntax

namespace Concrete

mutual

/-- The trees in a tree, itself among them, in preorder. -/
def subtrees : Concrete → List Concrete
  | node label children => node label children :: subtreesAll children

def subtreesAll : List Concrete → List Concrete
  | [] => []
  | t :: rest => subtrees t ++ subtreesAll rest

end

/-- The first erroneous or missing node in preorder. -/
def firstFault? (t : Concrete) : Option Concrete :=
  t.subtrees.find? (·.label.isFault)

/-- The nodes that are marked are those that are erroneous or missing or hold such a node. -/
def Marked (t : Concrete) : Prop :=
  ∀ s ∈ t.subtrees, s.label.hasError = true ↔ ∃ u ∈ s.subtrees, u.label.isFault = true

instance (t : Concrete) : Decidable t.Marked :=
  inferInstanceAs (Decidable (∀ s ∈ t.subtrees, _))

theorem subtrees_eq (t : Concrete) : t.subtrees = t :: subtreesAll t.children := by
  cases t with
  | node label children => rfl

theorem mem_subtrees (t : Concrete) : t ∈ t.subtrees :=
  subtrees_eq t ▸ List.mem_cons_self

theorem subtreesAll_append (a b : List Concrete) :
    subtreesAll (a ++ b) = subtreesAll a ++ subtreesAll b := by
  induction a with
  | nil => rfl
  | cons t rest ih => rw [List.cons_append, subtreesAll, subtreesAll, ih, List.append_assoc]

theorem subtrees_subset {t : Concrete} {ts : List Concrete} (inside : t ∈ ts) :
    t.subtrees ⊆ subtreesAll ts := by
  induction ts with
  | nil => cases inside
  | cons first rest ih =>
      rw [subtreesAll]
      rcases List.mem_cons.mp inside with rfl | later
      · exact List.subset_append_left _ _
      · exact List.subset_append_of_subset_right _ (ih later)

theorem Marked.child {t child : Concrete} (h : t.Marked) (inside : child ∈ t.children) :
    child.Marked := by
  intro s hs
  refine h s ?_
  rw [subtrees_eq]
  exact List.mem_cons_of_mem _ (subtrees_subset inside hs)

/-- A tree that is no suspect holds no error. -/
theorem Marked.clean {t : Concrete} (h : t.Marked)
    (suspect : ¬(t.label.hasError || t.label.missing) = true) :
    t.subtrees.find? (·.label.isFault) = none := by
  refine List.find?_eq_none.mpr fun u hu fault => suspect ?_
  rw [Bool.or_eq_true]
  exact .inl ((h t t.mem_subtrees).mpr ⟨u, hu, fault⟩)

/-- What the search leaves out below a node holds no error. -/
theorem find?_suspects {ts : List Concrete} (marked : ∀ t ∈ ts, t.Marked) :
    (subtreesAll (ts.filter fun t => t.label.hasError || t.label.missing)).find? (·.label.isFault) =
      (subtreesAll ts).find? (·.label.isFault) := by
  induction ts with
  | nil => rfl
  | cons t rest ih =>
      obtain ⟨first, others⟩ := List.forall_mem_cons.mp marked
      rw [List.filter_cons]
      split
      · rw [subtreesAll, subtreesAll, List.find?_append, List.find?_append, ih others]
      · rename_i clean
        rw [ih others, subtreesAll, List.find?_append, first.clean clean, Option.none_or]

/-- The search finds the first error of the pending trees. -/
theorem errorAmong?_eq (pending : List Concrete) (marked : ∀ t ∈ pending, t.Marked) :
    errorAmong? pending =
      ((subtreesAll pending).find? (·.label.isFault)).map (·.label.span) := by
  fun_induction errorAmong? pending with
  | case1 => rfl
  | case2 t rest fault =>
      simp only [subtreesAll, subtrees_eq t, List.cons_append, List.find?_cons, fault, Option.map_some]
  | case3 t rest sound ih =>
      obtain ⟨first, others⟩ := List.forall_mem_cons.mp marked
      have below : ∀ s ∈ t.children, s.Marked := fun s hs => first.child hs
      have left : ∀ s ∈ t.suspects ++ rest, s.Marked := by
        intro s hs
        rcases List.mem_append.mp hs with suspect | later
        · exact below s (List.mem_of_mem_filter suspect)
        · exact others s later
      have passed : (subtreesAll (t :: rest)).find? (·.label.isFault) =
          ((subtreesAll t.children).find? (·.label.isFault)).or
            ((subtreesAll rest).find? (·.label.isFault)) := by
        simp only [subtreesAll, subtrees_eq t, List.cons_append, List.find?_cons, sound,
          List.find?_append]
      rw [ih left, passed, subtreesAll_append, List.find?_append, suspects, find?_suspects below]

theorem firstError?_eq {t : Concrete} (marked : t.Marked) :
    t.firstError? = t.firstFault?.map (·.label.span) := by
  rw [firstError?, firstFault?]
  split
  · rename_i holds
    obtain ⟨u, hu, fault⟩ := (marked t t.mem_subtrees).mp holds
    have found : (t.subtrees.find? (·.label.isFault)).isSome := List.find?_isSome.mpr ⟨u, hu, fault⟩
    obtain ⟨first, found⟩ := Option.isSome_iff_exists.mp found
    rw [errorAmong?_eq [t] (List.forall_mem_singleton.mpr marked), subtreesAll, subtreesAll,
      List.append_nil, found]
    rfl
  · rename_i clean
    have none : t.subtrees.find? (·.label.isFault) = none :=
      List.find?_eq_none.mpr fun u hu fault => clean ((marked t t.mem_subtrees).mpr ⟨u, hu, fault⟩)
    rw [none, Option.map_none]

end Concrete

/-! ## Through the cache -/

theorem ParseOptions.accept_eq {o : ParseOptions} (rejects : o.rejectErrors = true) (p : Parsed) :
    o.accept p = p.rejection?.elim (.ok p) .error := by
  unfold accept
  rw [rejects]
  cases p.rejection? with
  | none => rfl
  | some cause => rfl

namespace ParseCache

section

variable {trees : String → Keyed Language Concrete} {o : ParseOptions} {c : ParseCache}

/-- What a step adds to the entries is what a parse has made. -/
theorem mem_perform {step : CacheStep} {key : ParseKey} {parsed : Parsed}
    (inside : (key, parsed) ∈ (c.perform trees o step).entries) :
    (key, parsed) ∈ c.entries ∨ ∃ path text language, step = .parse path text language ∧
      key = ⟨path, Digest.contentHash text, language⟩ ∧
      parsed = .ofSource ⟨text, trees text⟩ language key.contentHash := by
  cases step with
  | parse path text language =>
      rw [perform] at inside
      cases held : Keyed.get? c.entries ⟨path, Digest.contentHash text, language⟩ with
      | some before =>
          rw [parse_of_held held] at inside
          exact .inl (Keyed.front_subset held inside)
      | none =>
          cases read : parse? o.registered ⟨text, trees text⟩
              ⟨path, Digest.contentHash text, language⟩ with
          | error cause =>
              rw [parse_of_unreadable held read] at inside
              exact .inl inside
          | ok made =>
              rw [parse_of_read held read] at inside
              rcases List.mem_cons.mp (List.mem_of_mem_take inside) with same | other
              · cases same
                exact .inr ⟨path, text, language, rfl, rfl, (parse?_eq_ok read).2⟩
              · exact .inl (List.mem_of_mem_filter other)
  | get other =>
      rw [perform, get?] at inside
      cases held : Keyed.get? c.entries other with
      | none =>
          rw [held] at inside
          exact .inl inside
      | some before =>
          rw [held] at inside
          exact .inl (Keyed.front_subset held inside)
  | evict other => exact .inl (List.mem_of_mem_filter inside)
  | evictPath path => exact .inl (List.mem_of_mem_filter inside)

end

/-- The cache after some steps, each with the options of its own. -/
def performEach (trees : String → Keyed Language Concrete) (c : ParseCache)
    (steps : List (ParseOptions × CacheStep)) : ParseCache :=
  steps.foldl (fun c s => c.perform trees s.1 s.2) c

/-- Every entry was made of one of some texts, which has the hash of its key. -/
def MadeOf (trees : String → Keyed Language Concrete) (texts : List String) (c : ParseCache) : Prop :=
  ∀ key parsed, (key, parsed) ∈ c.entries → ∃ text ∈ texts,
    Digest.contentHash text = key.contentHash ∧
    parsed = .ofSource ⟨text, trees text⟩ key.language key.contentHash

section

variable {trees : String → Keyed Language Concrete} {texts : List String} {c : ParseCache}

theorem MadeOf.perform (made : MadeOf trees texts c) (o : ParseOptions) {step : CacheStep}
    (known : ∀ text, step.text? = some text → text ∈ texts) :
    MadeOf trees texts (c.perform trees o step) := by
  intro key parsed inside
  rcases mem_perform inside with before | ⟨path, text, language, rfl, rfl, rfl⟩
  · exact made key parsed before
  · exact ⟨text, known text rfl, rfl, rfl⟩

theorem MadeOf.performEach (made : MadeOf trees texts c) (steps : List (ParseOptions × CacheStep))
    (known : ∀ s ∈ steps, ∀ text, s.2.text? = some text → text ∈ texts) :
    MadeOf trees texts (c.performEach trees steps) := by
  induction steps generalizing c with
  | nil => exact made
  | cons s rest ih =>
      obtain ⟨first, others⟩ := List.forall_mem_cons.mp known
      exact ih (made.perform s.1 first) others

end

/-- How a parse of a source ends and is counted, by the first error of its tree. -/
structure Reports (c : ParseCache) (o : ParseOptions) (source : Source) (key : ParseKey) : Prop where
  clean : (source.tree key.language).firstFault? = none →
    (c.parse o source key).1 = .ok (.ofSource source key.language key.contentHash)
  fault : ∀ t, (source.tree key.language).firstFault? = some t →
    (c.parse o source key).1 = .error (.syntaxError t.label.span.startByte t.label.span.startLine
      s!"{key.language.name} source contains syntax errors")
  hit : Keyed.has c.entries key = true →
    (c.parse o source key).2.hits = c.hits + 1 ∧ (c.parse o source key).2.misses = c.misses
  miss : Keyed.has c.entries key = false →
    (c.parse o source key).2.hits = c.hits ∧ (c.parse o source key).2.misses = c.misses + 1

section

variable {c : ParseCache} {o : ParseOptions} {source : Source} {key : ParseKey}

/-- A parse answers by what is made of its source, also when that is held. -/
theorem parse_answer (known : key.language ∈ o.registered)
    (held : ∀ parsed, Keyed.get? c.entries key = some parsed →
      parsed = .ofSource source key.language key.contentHash) :
    (c.parse o source key).1 = o.accept (.ofSource source key.language key.contentHash) := by
  cases found : Keyed.get? c.entries key with
  | some parsed => rw [parse_of_held found, held parsed found]
  | none => rw [parse_of_read found (if_pos known)]

theorem reports (rejects : o.rejectErrors = true) (known : key.language ∈ o.registered)
    (held : ∀ parsed, Keyed.get? c.entries key = some parsed →
      parsed = .ofSource source key.language key.contentHash)
    (marked : (source.tree key.language).Marked) : c.Reports o source key := by
  have answer := parse_answer known held
  rw [ParseOptions.accept_eq rejects] at answer
  have first := Concrete.firstError?_eq marked
  constructor
  case clean =>
    intro none
    rw [none] at first
    rw [answer, Parsed.rejection?, Parsed.ofSource, first]
    rfl
  case fault =>
    intro t found
    rw [found] at first
    rw [answer, Parsed.rejection?, Parsed.ofSource, first]
    rfl
  case hit =>
    intro has
    obtain ⟨parsed, found⟩ := Option.isSome_iff_exists.mp has
    rw [parse_of_held found]
    exact ⟨rfl, rfl⟩
  case miss =>
    intro absent
    have none : Keyed.get? c.entries key = none := by simpa [Keyed.has] using absent
    rw [parse_of_read none (if_pos known)]
    exact ⟨rfl, rfl⟩

end

end ParseCache

/-- In a tree with its errors marked, the search comes to the first erroneous or missing node in
preorder, and to nothing if there is none. A parse that accepts no errors fails on such a node, with
its start and its line, and on nothing else, whatever was asked of the cache before and with whatever
options, so also when the source is held. Other texts are told apart from the one that is parsed by
their hashes. -/
theorem first_error_reported :
    (∀ t : Concrete, t.Marked → t.firstError? = t.firstFault?.map (·.label.span)) ∧
      ∀ (trees : String → Keyed Language Concrete) (capacity : Nat)
        (steps : List (ParseOptions × CacheStep)) (o : ParseOptions) (path text : String)
        (language : Language), o.rejectErrors = true → language ∈ o.registered →
        (∀ s ∈ steps, ∀ other, s.2.text? = some other →
          Digest.contentHash other = Digest.contentHash text → other = text) →
        (Source.tree ⟨text, trees text⟩ language).Marked →
        ((ParseCache.ofCapacity capacity).performEach trees steps).Reports o ⟨text, trees text⟩
          ⟨path, Digest.contentHash text, language⟩ := by
  refine ⟨fun t marked => Concrete.firstError?_eq marked, ?_⟩
  intro trees capacity steps o path text language rejects known apart marked
  have start : ParseCache.MadeOf trees (steps.filterMap (·.2.text?)) (.ofCapacity capacity) :=
    fun _ _ inside => absurd inside List.not_mem_nil
  have made := start.performEach steps fun s hs other asked =>
    List.mem_filterMap.mpr ⟨s, hs, asked⟩
  refine ParseCache.reports rejects known ?_ marked
  intro parsed held
  obtain ⟨other, asked, hash, rfl⟩ := made _ _ (Keyed.mem_of_get? held)
  obtain ⟨s, hs, asked⟩ := List.mem_filterMap.mp asked
  obtain rfl := apart s hs other asked hash
  rfl

/-- The text of a call that is not closed, between a plain line and a stray bracket. -/
def unclosedText : String :=
  "x\nf(\n]\n"

/-- Its tree in Python: the closing bracket of the call is missing, and the stray one is an error. -/
def unclosedTree : Concrete :=
  let leaf (label : Label) : Concrete := .node label []
  .node { kind := "module", hasError := true, span := ⟨0, 7, 1, 4⟩ } [
    .node { kind := "expression_statement", span := ⟨0, 1, 1, 1⟩ } [
      leaf { kind := "identifier", span := ⟨0, 1, 1, 1⟩ }],
    .node { kind := "call", hasError := true, span := ⟨2, 4, 2, 2⟩ } [
      leaf { kind := "identifier", field := some "function", span := ⟨2, 3, 2, 2⟩ },
      .node { kind := "argument_list", field := some "arguments", hasError := true,
              span := ⟨3, 4, 2, 2⟩ } [
        leaf { kind := "(", named := false, span := ⟨3, 4, 2, 2⟩ },
        leaf { kind := ")", named := false, missing := true, hasError := true,
               span := ⟨4, 4, 2, 2⟩ }]],
    .node { kind := "ERROR", error := true, hasError := true, span := ⟨5, 6, 3, 3⟩ } [
      leaf { kind := "]", named := false, span := ⟨5, 6, 3, 3⟩ }]]

/-- Another file is read, and then the one of the call without regard to its errors. -/
def lenientSteps : List (ParseOptions × CacheStep) :=
  [({}, .parse "b.py" "x" .python),
    ({ rejectErrors := false }, .parse "a.py" unclosedText .python)]

theorem unclosedTree_reported :
    unclosedTree.Marked ∧ unclosedTree.firstError? = some ⟨4, 4, 2, 2⟩ ∧
      Keyed.has ((ParseCache.ofCapacity 2).performEach (fun _ => [(.python, unclosedTree)])
        lenientSteps).entries ⟨"a.py", Digest.contentHash unclosedText, .python⟩ = true ∧
      ∀ steps ∈ [[], lenientSteps],
        (((ParseCache.ofCapacity 2).performEach (fun _ => [(.python, unclosedTree)]) steps).parse {}
          ⟨unclosedText, [(.python, unclosedTree)]⟩
          ⟨"a.py", Digest.contentHash unclosedText, .python⟩).1 =
        .error (.syntaxError 4 2 "python source contains syntax errors") := by
  have marked : unclosedTree.Marked := by decide +kernel
  have apart : Digest.contentHash "x" ≠ Digest.contentHash unclosedText := by decide +kernel
  refine ⟨marked, first_error_reported.1 unclosedTree marked, by decide +kernel,
    fun steps inside => ?_⟩
  refine (first_error_reported.2 (fun _ => [(.python, unclosedTree)]) 2 steps {} "a.py"
    unclosedText .python rfl (by decide) ?_ marked).fault _ rfl
  simp only [List.mem_cons, List.not_mem_nil, or_false] at inside
  rcases inside with rfl | rfl
  · exact fun _ none => absurd none List.not_mem_nil
  · intro s hs other asked same
    simp only [lenientSteps, List.mem_cons, List.not_mem_nil, or_false] at hs
    rcases hs with rfl | rfl
    · cases asked
      exact absurd same apart
    · cases asked
      rfl

end Syntax

end CodeSearch
