import CodeSearch.Proofs.Keyed
import CodeSearch.Syntax.ParseCache

/-! # Transparency of the parse cache

The grammars make the same trees of a text every time, so what is read from a text depends on the
text and the language only. Along a run of steps on one cache, every entry is what its key says,
under distinct keys and within the capacity. From this, a parse through the cache answers what a
parse without one does, be it a hit or a miss.

Texts are told apart by their hashes, so the texts of the run are assumed to have distinct ones.
-/

namespace CodeSearch

namespace Keyed

variable {κ α : Type} [DecidableEq κ]

theorem length_erase_lt {entries : Keyed κ α} {key : κ} {a : α} (held : get? entries key = some a) :
    (erase entries key).length < entries.length :=
  List.length_filter_lt_length_iff_exists.mpr ⟨(key, a), mem_of_get? held, by simp⟩

/-- An entry that moves to the front leaves the keys distinct. -/
theorem nodup_front {entries : Keyed κ α} (distinct : (keys entries).Nodup) (key : κ) (a : α) :
    (keys ((key, a) :: erase entries key)).Nodup := by
  refine List.nodup_cons.mpr ⟨?_, nodup_erase distinct key⟩
  exact get?_eq_none.mp (get?_erase_self entries key)

end Keyed

namespace Syntax

/-! ## One parse -/

namespace ParseCache

variable {c : ParseCache} {o : ParseOptions} {source : Source} {key : ParseKey}

theorem parse_of_held {parsed : Parsed} (held : Keyed.get? c.entries key = some parsed) :
    c.parse o source key =
      (o.accept parsed, { c with
        entries := (key, parsed) :: Keyed.erase c.entries key
        hits := c.hits + 1 }) := by
  simp only [parse, getOrInsert, get?, held]
  rfl

theorem parse_of_unreadable (absent : Keyed.get? c.entries key = none) {cause : ParseError}
    (unreadable : parse? o.registered source key = .error cause) :
    c.parse o source key = (.error cause, { c with misses := c.misses + 1 }) := by
  simp only [parse, getOrInsert, get?, absent, unreadable]
  rfl

theorem parse_of_read (absent : Keyed.get? c.entries key = none) {parsed : Parsed}
    (read : parse? o.registered source key = .ok parsed) :
    c.parse o source key =
      (o.accept parsed, { c with
        entries := ((key, parsed) :: Keyed.erase c.entries key).take c.capacity
        misses := c.misses + 1 }) := by
  simp only [parse, getOrInsert, get?, absent, read]
  rfl

end ParseCache

theorem parse?_eq_ok {registered : List Language} {source : Source} {key : ParseKey}
    {parsed : Parsed} (read : parse? registered source key = .ok parsed) :
    key.language ∈ registered ∧ parsed = .ofSource source key.language key.contentHash := by
  unfold parse? at read
  split at read
  · rename_i known
    exact ⟨known, (Except.ok.inj read).symm⟩
  · cases read

/-! ## Steps -/

/-- What is asked of a cache. -/
inductive CacheStep where
  | parse (path text : String) (language : Language)
  | get (key : ParseKey)
  | evict (key : ParseKey)
  | evictPath (path : String)

namespace CacheStep

/-- The text that a step parses. -/
def text? : CacheStep → Option String
  | .parse _ text _ => some text
  | _ => none

end CacheStep

/-- The texts of some steps are distinct by their hashes. -/
def HashApart (steps : List CacheStep) : Prop :=
  ∀ a ∈ steps.filterMap (·.text?), ∀ b ∈ steps.filterMap (·.text?),
    Digest.contentHash a = Digest.contentHash b → a = b

theorem HashApart.earlier {steps : List CacheStep} (rest : List CacheStep)
    (apart : HashApart (steps ++ rest)) : HashApart steps := by
  have part {text : String} (inside : text ∈ steps.filterMap (·.text?)) :
      text ∈ (steps ++ rest).filterMap (·.text?) :=
    List.filterMap_append ▸ List.mem_append_left _ inside
  exact fun a ha b hb => apart a (part ha) b (part hb)

section

variable (trees : String → Keyed Language Concrete) (o : ParseOptions)

/-- What a step answers without a cache, if it is a parse. -/
def CacheStep.uncached? : CacheStep → Option (Except ParseError Parsed)
  | .parse path text language =>
      some ((parse? o.registered ⟨text, trees text⟩ ⟨path, Digest.contentHash text, language⟩).bind
        o.accept)
  | _ => none

namespace ParseCache

/-- The cache after a step. -/
def perform (c : ParseCache) : CacheStep → ParseCache
  | .parse path text language =>
      (c.parse o ⟨text, trees text⟩ ⟨path, Digest.contentHash text, language⟩).2
  | .get key => (c.get? key).2
  | .evict key => (c.erase key).2
  | .evictPath path => (c.erasePath path).2

/-- What a step answers through the cache, if it is a parse. -/
def answer? (c : ParseCache) : CacheStep → Option (Except ParseError Parsed)
  | .parse path text language =>
      some (c.parse o ⟨text, trees text⟩ ⟨path, Digest.contentHash text, language⟩).1
  | _ => none

def performAll (c : ParseCache) (steps : List CacheStep) : ParseCache :=
  steps.foldl (·.perform trees o ·) c

/-- The answers to the parses of a run. -/
def answers : ParseCache → List CacheStep → List (Except ParseError Parsed)
  | _, [] => []
  | c, step :: rest => (c.answer? trees o step).toList ++ answers (c.perform trees o step) rest

end ParseCache

/-! ## What a run keeps -/

/-- A parsed source is what the language of its key makes of a text with the hash of its key. -/
def MadeBy (steps : List CacheStep) (key : ParseKey) (parsed : Parsed) : Prop :=
  ∃ text, .parse key.path text key.language ∈ steps ∧ Digest.contentHash text = key.contentHash ∧
    key.language ∈ o.registered ∧
    parsed = .ofSource ⟨text, trees text⟩ key.language key.contentHash

/-- Each entry is what its key says, under distinct keys and within the capacity. -/
structure Kept (capacity : Nat) (steps : List CacheStep) (c : ParseCache) : Prop where
  limit : c.capacity = capacity
  made : ∀ key parsed, (key, parsed) ∈ c.entries → MadeBy trees o steps key parsed
  distinct : (Keyed.keys c.entries).Nodup
  bounded : c.entries.length ≤ capacity

end

section

variable {trees : String → Keyed Language Concrete} {o : ParseOptions} {capacity : Nat}
  {steps : List CacheStep} {c : ParseCache}

theorem Kept.ofCapacity : Kept trees o (max capacity 1) [] (.ofCapacity capacity) where
  limit := rfl
  made _ _ inside := absurd inside List.not_mem_nil
  distinct := List.nodup_nil
  bounded := Nat.zero_le _

theorem Kept.later (kept : Kept trees o capacity steps c) (step : CacheStep) :
    Kept trees o capacity (steps ++ [step]) c where
  limit := kept.limit
  made key parsed inside := by
    obtain ⟨text, ran, made⟩ := kept.made key parsed inside
    exact ⟨text, List.mem_append_left _ ran, made⟩
  distinct := kept.distinct
  bounded := kept.bounded

/-- Fewer entries are kept as well. -/
theorem Kept.fewer (kept : Kept trees o capacity steps c) {entries : Keyed ParseKey Parsed}
    (part : entries.Sublist c.entries) : Kept trees o capacity steps { c with entries } where
  limit := kept.limit
  made key parsed inside := kept.made key parsed (part.subset inside)
  distinct := kept.distinct.sublist (part.map _)
  bounded := Nat.le_trans part.length_le kept.bounded

/-- The entry that is used last comes to the front. -/
theorem Kept.front (kept : Kept trees o capacity steps c) {key : ParseKey} {parsed : Parsed}
    (made : MadeBy trees o steps key parsed) {entries : Keyed ParseKey Parsed}
    (part : entries.Sublist ((key, parsed) :: Keyed.erase c.entries key))
    (few : entries.length ≤ capacity) (hits misses : Nat) :
    Kept trees o capacity steps { c with entries, hits, misses } where
  limit := kept.limit
  made other held inside := by
    rcases List.mem_cons.mp (part.subset inside) with same | rest
    · cases same
      exact made
    · exact kept.made other held (List.mem_of_mem_filter rest)
  distinct := (Keyed.nodup_front kept.distinct key parsed).sublist (part.map _)
  bounded := few

/-- An entry that is found comes to the front, and the cache stays as full as it was. -/
theorem Kept.found (kept : Kept trees o capacity steps c) {key : ParseKey} {parsed : Parsed}
    (held : Keyed.get? c.entries key = some parsed) (hits : Nat) :
    Kept trees o capacity steps
      { c with entries := (key, parsed) :: Keyed.erase c.entries key, hits } := by
  have made := kept.made key parsed (Keyed.mem_of_get? held)
  refine kept.front made (List.Sublist.refl _) ?_ hits c.misses
  exact Nat.lt_of_lt_of_le (Keyed.length_erase_lt held) kept.bounded

theorem Kept.get (kept : Kept trees o capacity steps c) (key : ParseKey) :
    Kept trees o capacity steps (c.get? key).2 := by
  rw [ParseCache.get?]
  cases held : Keyed.get? c.entries key with
  | none => exact kept
  | some parsed => exact kept.found held c.hits

/-- A parse of the run answers as without the cache, and is either a hit or a miss. -/
theorem Kept.parse (kept : Kept trees o capacity steps c) (apart : HashApart steps)
    {path text : String} {language : Language} (ran : .parse path text language ∈ steps) {key : ParseKey}
    (key_eq : key = ⟨path, Digest.contentHash text, language⟩) :
    (c.parse o ⟨text, trees text⟩ key).1 =
        (parse? o.registered ⟨text, trees text⟩ key).bind o.accept ∧
      Kept trees o capacity steps (c.parse o ⟨text, trees text⟩ key).2 ∧
      (c.parse o ⟨text, trees text⟩ key).2.hits + (c.parse o ⟨text, trees text⟩ key).2.misses =
        c.hits + c.misses + 1 := by
  have mem_texts {path text : String} {language : Language}
      (ran : .parse path text language ∈ steps) : text ∈ steps.filterMap (·.text?) :=
    List.mem_filterMap.mpr ⟨_, ran, rfl⟩
  subst key_eq
  cases held : Keyed.get? c.entries ⟨path, Digest.contentHash text, language⟩ with
  | some parsed =>
      -- The hash of the key leaves only the text that is parsed.
      obtain ⟨first, firstRan, hash, known, rfl⟩ := kept.made _ _ (Keyed.mem_of_get? held)
      obtain rfl : first = text := apart _ (mem_texts firstRan) _ (mem_texts ran) hash
      rw [ParseCache.parse_of_held held]
      refine ⟨?_, kept.found held _, by simp only; omega⟩
      rw [parse?, if_pos known]
      rfl
  | none =>
      cases read : parse? o.registered ⟨text, trees text⟩
          ⟨path, Digest.contentHash text, language⟩ with
      | error cause =>
          rw [ParseCache.parse_of_unreadable held read]
          exact ⟨rfl, ⟨kept.limit, kept.made, kept.distinct, kept.bounded⟩, by simp only; omega⟩
      | ok parsed =>
          rw [ParseCache.parse_of_read held read]
          obtain ⟨known, rfl⟩ := parse?_eq_ok read
          refine ⟨rfl, ?_, by simp only; omega⟩
          refine kept.front ⟨text, ran, rfl, known, rfl⟩ (List.take_sublist _ _) ?_ _ _
          exact kept.limit ▸ List.length_take_le _ _

/-- A step of the run answers as without the cache. -/
theorem Kept.perform (kept : Kept trees o capacity steps c) (step : CacheStep)
    (apart : HashApart (steps ++ [step])) :
    c.answer? trees o step = step.uncached? trees o ∧
      Kept trees o capacity (steps ++ [step]) (c.perform trees o step) ∧
      (c.perform trees o step).hits + (c.perform trees o step).misses =
        c.hits + c.misses + step.text?.toList.length := by
  have later := kept.later step
  cases step with
  | parse path text language =>
      have ran : .parse path text language ∈ steps ++ [.parse path text language] :=
        List.mem_append_right steps List.mem_cons_self
      obtain ⟨answer, after, counted⟩ := later.parse apart ran rfl
      exact ⟨congrArg some answer, after, counted⟩
  | get key =>
      refine ⟨rfl, later.get key, ?_⟩
      rw [ParseCache.perform, ParseCache.get?]
      split
      · rfl
      · rfl
  | evict key => exact ⟨rfl, later.fewer List.filter_sublist, rfl⟩
  | evictPath path => exact ⟨rfl, later.fewer List.filter_sublist, rfl⟩

theorem Kept.run (more : List CacheStep) (apart : HashApart (steps ++ more))
    (kept : Kept trees o capacity steps c) :
    c.answers trees o more = more.filterMap (·.uncached? trees o) ∧
      Kept trees o capacity (steps ++ more) (c.performAll trees o more) ∧
      (c.performAll trees o more).hits + (c.performAll trees o more).misses =
        c.hits + c.misses + (more.filterMap (·.text?)).length := by
  simp only [List.filterMap_eq_flatMap_toList]
  induction more generalizing steps c with
  | nil => exact ⟨rfl, by simpa [ParseCache.performAll] using kept, rfl⟩
  | cons step rest ih =>
      have split : steps ++ step :: rest = (steps ++ [step]) ++ rest := by simp
      rw [split] at apart ⊢
      obtain ⟨answer, after, counted⟩ := kept.perform step (apart.earlier rest)
      obtain ⟨answers, run, total⟩ := ih apart after
      refine ⟨?_, run, ?_⟩
      · rw [ParseCache.answers, answer, answers, List.flatMap_cons]
      · rw [ParseCache.performAll, List.foldl_cons, ← ParseCache.performAll, total, counted,
          List.flatMap_cons, List.length_append, Nat.add_assoc]

end

/-! ## Whole runs -/

/-- Dropping a path drops its entries and counts them. -/
structure DropsPath (c : ParseCache) (path : String) : Prop where
  counted : (c.erasePath path).1 = c.entries.countP (·.1.path == path)
  left : ∀ key, Keyed.get? (c.erasePath path).2.entries key =
    if key.path = path then none else Keyed.get? c.entries key

theorem ParseCache.dropsPath (c : ParseCache) (path : String) : DropsPath c path where
  counted := by
    have parts := c.entries.length_eq_countP_add_countP (·.1.path == path)
    have kept : (c.entries.filter (·.1.path != path)).length =
        c.entries.countP (fun e => !(e.1.path == path)) := by
      rw [List.countP_eq_length_filter]
      rfl
    simp only [erasePath, kept]
    simp only [Bool.not_eq_true, Bool.decide_eq_false] at parts
    omega
  left key := by
    rw [erasePath]
    split
    · rename_i inPath
      refine Keyed.get?_eq_none.mpr fun held => ?_
      obtain ⟨e, inside, rfl⟩ := List.mem_map.mp held
      simpa [inPath] using (List.mem_filter.mp inside).2
    · rename_i elsewhere
      exact Keyed.get?_filter _ fun _ _ => bne_iff_ne.mpr elsewhere

/-- What a run on an empty cache answers, and what it leaves of the cache. -/
structure Transparent (trees : String → Keyed Language Concrete) (o : ParseOptions) (capacity : Nat)
    (steps : List CacheStep) (c : ParseCache) : Prop where
  answers : (ParseCache.ofCapacity capacity).answers trees o steps =
    steps.filterMap (·.uncached? trees o)
  made : ∀ key parsed, (key, parsed) ∈ c.entries → MadeBy trees o steps key parsed
  distinct : (Keyed.keys c.entries).Nodup
  bounded : c.stats.entries ≤ max capacity 1
  counted : c.stats.hits + c.stats.misses = (steps.filterMap (·.text?)).length
  dropsPath : ∀ path, DropsPath c path

/-- Along every run of parses, lookups and evictions, the cache answers each parse as one without
    it. Each entry is what the language of its key makes of a text with the hash of its key; there
    are never more entries than the capacity, every parse counts as a hit or as a miss, and
    dropping a path drops its entries and no other. -/
theorem parseCache_transparent (trees : String → Keyed Language Concrete) (o : ParseOptions)
    (capacity : Nat) (steps : List CacheStep) (apart : HashApart steps) :
    Transparent trees o capacity steps
      ((ParseCache.ofCapacity capacity).performAll trees o steps) := by
  have start : Kept trees o (max capacity 1) [] (.ofCapacity capacity) := .ofCapacity
  obtain ⟨answers, kept, counted⟩ := Kept.run steps (List.nil_append steps ▸ apart) start
  refine ⟨answers, kept.made, kept.distinct, kept.bounded, ?_, ParseCache.dropsPath _⟩
  exact counted.trans (Nat.zero_add _)

/-- Two versions of a file beside another file, in a cache of one entry. -/
def smallSteps : List CacheStep :=
  [.parse "a.py" "f()" .python, .parse "a.py" "f()" .python, .parse "b.rs" "f(x)" .rust,
    .evictPath "b.rs", .parse "a.py" "f(x)" .python, .get ⟨"a.py", "", .python⟩]

theorem smallSteps_transparent :
    HashApart smallSteps ∧
      Transparent (fun _ => []) {} 0 smallSteps
        ((ParseCache.ofCapacity 0).performAll (fun _ => []) {} smallSteps) := by
  have apart : HashApart smallSteps := by
    have distinct : (["f()", "f(x)"].map Digest.contentHash).Nodup := by decide +kernel
    have known : smallSteps.filterMap (·.text?) ⊆ ["f()", "f(x)"] := by decide
    intro a ha b hb same
    exact List.inj_on_of_nodup_map distinct (known ha) (known hb) same
  exact ⟨apart, parseCache_transparent _ {} 0 smallSteps apart⟩

end Syntax

end CodeSearch
