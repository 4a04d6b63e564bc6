import CodeSearch.Proofs.Query.Names
import CodeSearch.Proofs.Sorting

/-! # Key terms

The key terms are the words of a question that say what is looked for, in the order in which they
first come, and each abbreviation among them has what it is short for behind it. Of the words those
that say nothing are left out, but what an abbreviation is short for is not looked at again: two
abbreviations of functions and one of implementations bring in a word that is left out when a
question uses it itself. Terms are in lower case, and an implied filter is like no other one.
-/

namespace CodeSearch.Query

/-- The word that a name gives: in lower case, and with two colons for a dot. -/
def wordOf (name : String) : String :=
  qualified (Text.lower name)

/-- What a word adds to the key terms. -/
def termsOf (word : String) : List String :=
  if isTerm word then word :: (expansion? word).toList else []

/-- Abbreviations of stop words, which are none themselves. -/
def abbreviatedStopWords : List (String × String) :=
  [("fn", "function"), ("func", "function"), ("impl", "implementation")]

/-! ## Words -/

theorem isTerm_iff {word : String} :
    isTerm word = true ↔
      2 ≤ word.utf8ByteSize ∧ word ∉ stopWords ∧ languageWord? word = none := by
  simp [isTerm, and_assoc]

/-- What an abbreviation is short for is no name of a language, and rarely a stop word. -/
theorem expansion?_spec {word long : String} (short : expansion? word = some long) :
    2 ≤ long.utf8ByteSize ∧ languageWord? long = none ∧
      (long ∈ stopWords ↔ (word, long) ∈ abbreviatedStopWords) := by
  unfold expansion? at short
  split at short
  all_goals cases short
  all_goals decide

theorem expansion?_of_abbreviated {word long : String}
    (short : (word, long) ∈ abbreviatedStopWords) :
    isTerm word = true ∧ expansion? word = some long := by
  have each : ∀ p ∈ abbreviatedStopWords, isTerm p.1 = true ∧ expansion? p.1 = some p.2 := by decide
  exact each _ short

/-! ## Terms of words -/

theorem foldl_addTerm (terms added : List String) :
    added.foldl addTerm terms = terms ++ (added.filter (!terms.contains ·)).eraseDups := by
  induction added generalizing terms with
  | nil => simp
  | cons t added ih =>
      rw [List.foldl_cons, ih, addTerm]
      cases there : terms.contains t with
      | true => rw [if_pos rfl, List.filter_cons_of_neg (by rw [there]; decide)]
      | false =>
          have others : added.filter (!(terms ++ [t]).contains ·) =
              (added.filter (!terms.contains ·)).filter (!· == t) := by
            rw [List.filter_filter]
            refine List.filter_congr fun u _ => ?_
            simp only [List.contains_append, List.contains_cons, List.contains_nil, Bool.or_false,
              Bool.not_or, Bool.and_comm]
          rw [if_neg Bool.false_ne_true, List.filter_cons_of_pos (by rw [there]; rfl),
            List.eraseDups_cons, others, List.append_assoc]
          rfl

/-- The key terms in the order in which they first come. -/
theorem keyTerms_eq_eraseDups (words : List String) :
    keyTerms words = (words.flatMap fun w => termsOf (qualified w)).eraseDups := by
  have folded : keyTerms words =
      (words.flatMap fun w => termsOf (qualified w)).foldl addTerm [] := by
    rw [List.foldl_flatMap]
    refine congrArg (fun step => words.foldl step []) (funext fun terms => funext fun w => ?_)
    simp only [termsOf]
    split
    · cases expansion? (qualified w) with
      | none => rfl
      | some long => rfl
    · rfl
  rw [folded, foldl_addTerm]
  simp

theorem mem_keyTerms {words : List String} {t : String} :
    t ∈ keyTerms words ↔
      ∃ w ∈ words, isTerm (qualified w) = true ∧
        (t = qualified w ∨ expansion? (qualified w) = some t) := by
  rw [keyTerms_eq_eraseDups, List.mem_eraseDups, List.mem_flatMap]
  refine exists_congr fun w => and_congr_right fun _ => ?_
  rw [termsOf]
  split
  · simp [*]
  · simp [*]

/-! ## Terms of questions -/

theorem mem_words {text : List Char} {w : String} :
    w ∈ words text ↔ ∃ name, .name name ∈ segments .between text ∧ w = Text.lower name := by
  rw [words, List.mem_filterMap]
  constructor
  · rintro ⟨piece, inside, chosen⟩
    cases piece with
    | name name => exact ⟨name, inside, (Option.some.inj chosen).symm⟩
    | other c => cases chosen
  · rintro ⟨name, inside, rfl⟩
    exact ⟨_, inside, rfl⟩

section

variable {text : String} {hints : ContextHints} {intent : QueryIntent} {pieces : List Segment}

theorem classify_terms (understood : classify text hints = .ok intent) :
    intent.terms = keyTerms (words (Text.trim text).toList) := by
  unfold classify at understood
  extract_lets trimmed cs category ws at understood
  split at understood
  · cases understood
  · rw [← Except.ok.inj understood]

theorem mem_terms (understood : classify text hints = .ok intent) (cut : Cut text.toList pieces)
    {t : String} :
    t ∈ intent.terms ↔ ∃ name, .name name ∈ pieces ∧ isTerm (wordOf name) = true ∧
      (t = wordOf name ∨ expansion? (wordOf name) = some t) := by
  simp only [classify_terms understood, mem_keyTerms, mem_words, name_mem_of_trim cut]
  constructor
  · rintro ⟨w, ⟨name, inside, rfl⟩, term⟩
    exact ⟨name, inside, term⟩
  · rintro ⟨name, inside, term⟩
    exact ⟨_, ⟨name, inside, rfl⟩, term⟩

/-- The key terms of a question: they are pairwise distinct, none is short or the name of a
    language, and every one of them comes from a name of the question. The stop words among them are
    exactly those of which the question has one of three abbreviations. Every name of the question
    that is not short, no stop word and no name of a language is among them. -/
theorem terms_clean (understood : classify text hints = .ok intent)
    (cut : Cut text.toList pieces) :
    intent.terms.Nodup ∧
    (∀ t ∈ intent.terms, 2 ≤ t.utf8ByteSize ∧ languageWord? t = none ∧
      ∃ name, .name name ∈ pieces ∧ (t = wordOf name ∨ expansion? (wordOf name) = some t)) ∧
    (∀ t ∈ stopWords, t ∈ intent.terms ↔
      ∃ name, .name name ∈ pieces ∧ (wordOf name, t) ∈ abbreviatedStopWords) ∧
    ∀ name, .name name ∈ pieces → 2 ≤ (wordOf name).utf8ByteSize → wordOf name ∉ stopWords →
      languageWord? (wordOf name) = none → wordOf name ∈ intent.terms := by
  have member {t : String} := mem_terms (t := t) understood cut
  refine ⟨?_, fun t inside => ?_, fun t stop => ?_, fun name inside long noStop noLanguage => ?_⟩
  · rw [classify_terms understood, keyTerms_eq_eraseDups]
    exact nodup_eraseDups _
  · obtain ⟨name, there, term, from_⟩ := member.mp inside
    obtain ⟨long, -, noLanguage⟩ := isTerm_iff.mp term
    rcases from_ with rfl | short
    · exact ⟨long, noLanguage, name, there, .inl rfl⟩
    · obtain ⟨long, noLanguage, -⟩ := expansion?_spec short
      exact ⟨long, noLanguage, name, there, .inr short⟩
  · rw [member]
    constructor
    · rintro ⟨name, there, term, rfl | short⟩
      · exact absurd stop (isTerm_iff.mp term).2.1
      · exact ⟨name, there, (expansion?_spec short).2.2.mp stop⟩
    · rintro ⟨name, there, short⟩
      obtain ⟨term, expanded⟩ := expansion?_of_abbreviated short
      exact ⟨name, there, term, .inr expanded⟩
  · exact member.mpr ⟨name, inside, isTerm_iff.mpr ⟨long, noStop, noLanguage⟩, .inl rfl⟩

end

/-- A question with an abbreviation, the name of a language, a short name, and one name in two
    spellings. -/
def mixedQuestion : String :=
  "Impl of Config.load in Rust: x config::load"

theorem mixedQuestion_clean :
    ∃ intent, classify mixedQuestion {} = .ok intent ∧
      Cut mixedQuestion.toList (segments .between mixedQuestion.toList) ∧
      intent.terms = ["impl", "implementation", "config::load"] ∧ intent.terms.Nodup ∧
      (∀ t ∈ intent.terms, 2 ≤ t.utf8ByteSize ∧ languageWord? t = none) ∧
      "implementation" ∈ stopWords ∧ "implementation" ∈ intent.terms ∧
      wordOf "Config.load" ∈ intent.terms := by
  have computed : (classify mixedQuestion {}).toOption.map (·.terms) =
      some ["impl", "implementation", "config::load"] := by decide +kernel
  cases understood : classify mixedQuestion {} with
  | error cause =>
      rw [understood] at computed
      cases computed
  | ok intent =>
      rw [understood] at computed
      have cut : Cut mixedQuestion.toList (segments .between mixedQuestion.toList) :=
        cut_iff.mpr rfl
      obtain ⟨distinct, clean, stops, complete⟩ := terms_clean understood cut
      have abbreviated : ∃ name, .name name ∈ segments .between mixedQuestion.toList ∧
          (wordOf name, "implementation") ∈ abbreviatedStopWords :=
        ⟨"Impl", by decide +kernel, by decide +kernel⟩
      exact ⟨intent, rfl, cut, Option.some.inj computed, distinct,
        fun t inside => ⟨(clean t inside).1, (clean t inside).2.1⟩, by decide,
        (stops "implementation" (by decide)).mpr abbreviated,
        complete "Config.load" (by decide +kernel) (by decide +kernel) (by decide +kernel)
          (by decide +kernel)⟩

/-- A stop word comes in as what an abbreviation is short for, although the question does not use
    it, and is left out where the question does. -/
theorem function_brought_in :
    (classify "fn foo" {}).toOption.map (·.terms) = some ["fn", "function", "foo"] ∧
      (classify "function foo" {}).toOption.map (·.terms) = some ["foo"] ∧
      "function" ∈ stopWords := by
  decide +kernel

/-! ## Lower case

The names of a question are written in ASCII, since a scan goes on with a name only by characters
of names and separators. So the key terms are in lower case for good: lowering one again changes
nothing, and it is looked up as it stands.
-/

open Text (Lowered)

theorem words_lowered (text : List Char) : ∀ w ∈ words text, Lowered w := by
  intro w inside
  obtain ⟨name, there, rfl⟩ := mem_words.mp inside
  have cut : Cut text (segments .between text) := cut_iff.mpr rfl
  exact Text.lower_lowered (cut.isName there).ascii

theorem qualified_lowered {w : String} (lowered : Lowered w) : Lowered (qualified w) := by
  intro c inside
  rw [qualified, String.toList_ofList] at inside
  obtain ⟨d, hd, part⟩ := List.mem_flatMap.mp inside
  split at part
  · have colon : c = ':' := by simpa using part
    subst colon
    decide
  · rw [List.mem_singleton.mp part]
    exact lowered d hd

theorem expansion?_lowered {word long : String} (h : expansion? word = some long) :
    Lowered long := by
  unfold expansion? at h
  split at h
  all_goals cases h
  all_goals decide

theorem keyTerms_lowered {words : List String} (h : ∀ w ∈ words, Lowered w) :
    ∀ t ∈ keyTerms words, Lowered t := by
  intro t inside
  obtain ⟨w, there, -, rfl | short⟩ := mem_keyTerms.mp inside
  · exact qualified_lowered (h w there)
  · exact expansion?_lowered short

/-! ## Implied filters -/

/-- An implied filter is like no other one. -/
theorem impliedFilters_exact {category : QueryCategory} {words : List String} {f : Filter}
    (h : f ∈ impliedFilters category words) (g : Filter) (equal : (f == g) = true) : f = g := by
  have language (l : Language) (equal : (Filter.language l == g) = true) : .language l = g := by
    cases g with
    | language l' => exact congrArg Filter.language (beq_iff_eq.mp equal)
    | _ => cases equal
  have kind (k : SymbolKind) (equal : (Filter.kind k == g) = true) : .kind k = g := by
    cases g with
    | kind k' => exact congrArg Filter.kind (beq_iff_eq.mp equal)
    | _ => cases equal
  have pattern (p : Pattern) (equal : (Filter.patternType p == g) = true) : .patternType p = g := by
    cases g with
    | patternType p' => exact congrArg Filter.patternType (beq_iff_eq.mp equal)
    | _ => cases equal
  rcases List.mem_append.mp h with first | second
  · obtain ⟨l, -, rfl⟩ := Option.map_eq_some_iff.mp (Option.mem_toList.mp first)
    exact language l equal
  · have chosen := Option.mem_toList.mp second
    split at chosen
    · obtain ⟨k, -, rfl⟩ := Option.map_eq_some_iff.mp chosen
      exact kind k equal
    · obtain ⟨p, -, rfl⟩ := Option.map_eq_some_iff.mp chosen
      exact pattern p equal
    · cases chosen

theorem classify_ok {text : String} {hints : ContextHints} {intent : QueryIntent}
    (understood : classify text hints = .ok intent) :
    (∀ t ∈ intent.terms, Text.lower t = t) ∧
      ∀ f ∈ intent.filters, ∀ g, (f == g) = true → f = g := by
  constructor
  · intro t inside
    rw [classify_terms understood] at inside
    exact (keyTerms_lowered (words_lowered _) t inside).lower_eq
  · unfold classify at understood
    extract_lets trimmed cs category ws at understood
    split at understood
    · cases understood
    · have filters : intent.filters = impliedFilters category ws := by
        rw [← Except.ok.inj understood]
      rw [filters]
      exact fun f inside => impliedFilters_exact inside

end CodeSearch.Query
