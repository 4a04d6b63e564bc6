import CodeSearch.Proofs.Index.Candidates
import CodeSearch.Proofs.Index.Interleaving
import CodeSearch.Proofs.Query.Terms
import CodeSearch.Proofs.Ranking

/-! # Answers

What a query answers with is held now and has all that the filters in force ask for, as the symbols
themselves tell: the vectors bring in symbols by their records, which are labelled like them, and
all other candidates are looked up as they stand.
-/

namespace CodeSearch

theorem PatternsHold.congr {asked also : Filter → Prop} (same : ∀ f, asked f ↔ also f)
    {found : List PatternMatch} : PatternsHold asked found ↔ PatternsHold also found := by
  rw [funext fun f => propext (same f)]

namespace CodeIndex

open Time (Instant)
open IndexState (Labelling)

/-- How many results are asked for. -/
def topKOf (w : CodeIndex) (request : QueryRequest) : Nat :=
  request.topK.getD w.config.query.defaultTopK

/-- What was touched last, as hints for a question. -/
def hints (w : CodeIndex) : ContextHints :=
  .ofRecent w.state.recentPaths w.state.recentSymbols

/-- A symbol has all that the filters in force ask for. -/
structure Satisfies (w : CodeIndex) (request : QueryRequest) (intent : QueryIntent) (s : Symbol) :
    Prop where
  traits : ∀ f, InForce request.filters intent.filters f → f.Holds s
  patterns : PatternsHold (InForce request.filters intent.filters)
    (w.state.patternsFor w.detector s)

/-- A symbol with its score for a question. -/
def scoredFor (w : CodeIndex) (intent : QueryIntent) (query : Vector) (s : Symbol) : RankedResult :=
  Ranking.scored w.config.ranking intent w.state.feedback w.now (s, w.state.similarity query s)

/-- The results as they are shown, with the matches of patterns if these are asked for. -/
def shown (w : CodeIndex) (request : QueryRequest) (results : List RankedResult) :
    List RankedResult :=
  if request.includePatterns then results.map w.withPatterns else results

/-- The results for candidates. -/
def resultsOf (w : CodeIndex) (request : QueryRequest) (intent : QueryIntent) (filters : FilterSet)
    (cs : Candidates) (topK : Nat) : List RankedResult :=
  w.shown request
    (Ranking.rank w.config.ranking (w.entries filters cs) intent w.state.feedback w.now topK)

variable {w : CodeIndex} {request : QueryRequest} {intent : QueryIntent} {set : FilterSet}
variable {query : Vector} {cs : Candidates} {results : List RankedResult}

/-! ## Filters in force -/

theorem patternsFor_confidence {s : Symbol} {m : PatternMatch}
    (found : m ∈ w.state.patternsFor w.detector s) : 0 ≤ m.confidence := by
  unfold IndexState.patternsFor at found
  split at found
  · obtain ⟨⟨p, score⟩, reached, rfl⟩ := List.mem_map.mp (List.mem_mergeSort.mp found)
    have enough : w.detector.threshold ≤ score := of_decide_eq_true (List.mem_filter.mp reached).2
    exact Score.number_le_trans (Score.zero_le_clamp (Score.isNumber_left enough)) enough
  · cases found

theorem passesPatterns_iff {given : List Filter} (made : FilterSet.ofList given = .ok set)
    (s : Symbol) : w.passesPatterns set s = true ↔
      PatternsHold (· ∈ given) (w.state.patternsFor w.detector s) := by
  rw [passesPatterns]
  cases patterns : set.hasPatternFilters with
  | false =>
      have none : ∀ f ∈ given, f.type.looksAtPatterns = false := by
        intro f asked
        by_contra looks
        rw [(FilterSet.hasPatternFilters_iff made).mpr ⟨f, asked, Bool.not_eq_false _ ▸ looks⟩]
          at patterns
        cases patterns
      exact iff_of_true rfl (FilterSet.patternsHold_of_none none _)
  | true => exact FilterSet.matchesPatterns_iff made fun m found => patternsFor_confidence found

/-- A symbol that passes the filters of a query has all that those in force ask for. -/
theorem satisfies_iff (exact : ∀ f ∈ intent.filters, ∀ g, (f == g) = true → f = g)
    (made : FilterSet.withInferred request.filters intent.filters = .ok set) (s : Symbol) :
    w.Satisfies request intent s ↔
      set.matchesMetadata s.metadata = true ∧ w.passesPatterns set s = true := by
  have inForce (f : Filter) : f ∈ FilterSet.merge request.filters intent.filters ↔
      InForce request.filters intent.filters f := FilterSet.mem_merge exact
  rw [FilterSet.matchesMetadata_iff made, passesPatterns_iff made, PatternsHold.congr inForce]
  constructor
  · exact fun h => ⟨fun f inside => h.traits f ((inForce f).mp inside), h.patterns⟩
  · exact fun ⟨traits, patterns⟩ => ⟨fun f asked => traits f ((inForce f).mpr asked), patterns⟩

/-! ## What a query does -/

theorem query_ok (answered : (w.query request).1 = .ok results) :
    ∃ intent set, Query.classify request.text w.hints = .ok intent ∧
      FilterSet.withInferred request.filters intent.filters = .ok set ∧
      (w.topKOf request = 0 ∧ results = [] ∨
        ∃ vector, w.embedQuery intent.expanded = .ok vector ∧
          w.answer request intent set vector (w.topKOf request) = .ok results) := by
  rw [hints]
  simp only [query, discard, Functor.mapConst, Except.map, Function.comp, Except.mapError, bind,
    Except.bind, pure, Except.pure] at answered
  cases given : FilterSet.ofList request.filters with
  | error cause =>
      simp only [given] at answered
      cases answered
  | ok _ =>
      cases understood : Query.classify request.text
          (.ofRecent w.state.recentPaths w.state.recentSymbols) with
      | error cause =>
          simp only [given, understood] at answered
          cases answered
      | ok intent =>
          cases made : FilterSet.withInferred request.filters intent.filters with
          | error cause =>
              simp only [given, understood, made] at answered
              cases answered
          | ok set =>
              refine ⟨intent, set, rfl, made, ?_⟩
              simp only [given, understood, made] at answered
              rw [topKOf]
              split at answered
              · rename_i none
                cases answered
                exact .inl ⟨none, rfl⟩
              · cases embedded : w.embedQuery intent.expanded with
                | error cause =>
                    simp only [embedded] at answered
                    cases answered
                | ok vector =>
                    simp only [embedded] at answered
                    exact .inr ⟨vector, rfl, answered⟩

/-- Candidates among which is every symbol that is looked up and passes the filters on metadata. -/
structure Gathered (w : CodeIndex) (terms : List String) (filters : FilterSet) (query : Vector)
    (cs : Candidates) : Prop extends Eligible w filters query cs where
  named : ∀ s, w.state.symbol? s.id = some s → filters.matchesMetadata s.metadata = true →
    (Text.lower s.name ∈ terms ∨ Text.lower s.qualifiedName ∈ terms) → Keyed.has cs s.id = true
  patterned : ∀ s, w.state.symbol? s.id = some s → filters.matchesMetadata s.metadata = true →
    filters.hasPatternFilters = true → (s.kind = .type ∨ s.kind = .function) →
      Keyed.has cs s.id = true

theorem answer_ok (consistent : w.state.Consistent) (labelling : Labelling w.state)
    (lowered : ∀ t ∈ intent.terms, Text.lower t = t) {topK : Nat}
    (answered : w.answer request intent set query topK = .ok results) :
    ∃ cs, Gathered w intent.terms set query cs ∧
      results = w.resultsOf request intent set cs topK := by
  cases similar : w.vectorCandidates set query topK with
  | error cause => simp [answer, similar, bind, Except.bind] at answered
  | ok first =>
      simp only [answer, similar, bind, Except.bind, pure, Except.pure, Except.ok.injEq] at answered
      refine ⟨_, ⟨?eligible, ?named, ?patterned⟩, answered.symm⟩
      case eligible =>
        have eligible := vectorCandidates_eligible consistent labelling similar
        refine addSymbols_eligible (addSymbols_eligible eligible fun s inside => ?_) fun s inside => ?_
        · exact ((mem_namedBy consistent lowered).mp inside).1
        · exact ((mem_patternBearers consistent).mp inside).2.1
      case named =>
        intro s held passes name
        have found := (mem_namedBy consistent lowered).mpr ⟨held, name⟩
        exact has_addSymbols.mpr (.inl (has_addSymbols.mpr (.inr ⟨s, found, passes, rfl⟩)))
      case patterned =>
        intro s held passes patterns kind
        have found := (mem_patternBearers consistent).mpr ⟨patterns, held, kind⟩
        exact has_addSymbols.mpr (.inr ⟨s, found, passes, rfl⟩)

/-- What is shown of a result are its symbol, its score and its place. -/
theorem shown_eq (w : CodeIndex) (request : QueryRequest) (results : List RankedResult) :
    ∃ f : RankedResult → RankedResult, w.shown request results = results.map f ∧
      ∀ r, (f r).symbol = r.symbol ∧ (f r).score = r.score ∧ (f r).rank = r.rank := by
  unfold shown
  split
  · exact ⟨w.withPatterns, rfl, fun r => ⟨rfl, rfl, rfl⟩⟩
  · exact ⟨id, (List.map_id _).symm, fun r => ⟨rfl, rfl, rfl⟩⟩

section

variable {topK : Nat}

theorem mem_resultsOf {r : RankedResult} (h : r ∈ w.resultsOf request intent set cs topK) :
    ∃ e ∈ w.entries set cs, r.symbol = e.1 ∧
      r.score = (Ranking.scored w.config.ranking intent w.state.feedback w.now e).score := by
  obtain ⟨f, shown, same⟩ := w.shown_eq request
    (Ranking.rank w.config.ranking (w.entries set cs) intent w.state.feedback w.now topK)
  rw [resultsOf, shown] at h
  obtain ⟨r, inside, rfl⟩ := List.mem_map.mp h
  obtain ⟨e, he, symbol, score⟩ := Ranking.rank_origin inside
  exact ⟨e, he, (same r).1.trans symbol, (same r).2.1.trans score⟩

end

/-! ## Sound answers -/

/-- What a query answers with, if it does: at most as many results as are asked for, of different
    symbols and in the order of their ranks. Each is a symbol of the version that is held of its
    file, and has all that the filters in force ask for. -/
structure SoundAnswer (w : CodeIndex) (request : QueryRequest) (intent : QueryIntent)
    (results : List RankedResult) : Prop where
  few : results.length ≤ w.topKOf request
  distinct : (results.map (·.symbol.id)).Nodup
  ranks : ∀ place r, results[place]? = some r → r.rank = place + 1
  held : ∀ r ∈ results, w.state.symbol? r.symbol.id = some r.symbol ∧
    ∃ entry, w.state.unit? r.symbol.unit.path = some entry ∧ r.symbol.id ∈ entry.symbolIds ∧
      r.symbol.unit.version = entry.unit.version
  satisfied : ∀ r ∈ results, w.Satisfies request intent r.symbol

theorem SoundAnswer.nil : SoundAnswer w request intent [] :=
  ⟨Nat.zero_le _, List.nodup_nil, fun _ _ none => (Option.some_ne_none _ none.symm).elim,
    fun _ none => absurd none List.not_mem_nil, fun _ none => absurd none List.not_mem_nil⟩

theorem Eligible.sound (h : Eligible w set query cs) (consistent : w.state.Consistent)
    (exact : ∀ f ∈ intent.filters, ∀ g, (f == g) = true → f = g)
    (made : FilterSet.withInferred request.filters intent.filters = .ok set) :
    SoundAnswer w request intent (w.resultsOf request intent set cs (w.topKOf request)) := by
  obtain ⟨f, shown, same⟩ := w.shown_eq request (Ranking.rank w.config.ranking (w.entries set cs)
    intent w.state.feedback w.now (w.topKOf request))
  refine ⟨?few, ?distinct, ?ranks, ?held, ?satisfied⟩
  case few =>
    rw [resultsOf, shown, List.length_map, Ranking.rank_length]
    exact Nat.min_le_left _ _
  case distinct =>
    rw [resultsOf, shown, List.map_map]
    refine (List.map_congr_left fun r _ => ?_) ▸ Ranking.rank_ids (entries_ids consistent h.keys)
    exact congrArg Symbol.id (same r).1.symm
  case ranks =>
    intro place r there
    rw [resultsOf, shown, List.getElem?_map] at there
    obtain ⟨r, before, rfl⟩ := Option.map_eq_some_iff.mp there
    exact (same r).2.2.trans (Ranking.rank_numbers before)
  case held =>
    intro r inside
    obtain ⟨⟨s, similarity⟩, he, symbol, -⟩ := mem_resultsOf inside
    obtain ⟨-, held, -⟩ := (mem_entries consistent).mp he
    rw [symbol]
    exact ⟨held, consistent.home held⟩
  case satisfied =>
    intro r inside
    obtain ⟨⟨s, similarity⟩, he, symbol, -⟩ := mem_resultsOf inside
    obtain ⟨listed, held, passes⟩ := (mem_entries consistent).mp he
    obtain ⟨t, heldToo, admitted, -⟩ := h.held _ listed
    rw [held] at heldToo
    cases heldToo
    rw [symbol]
    exact (satisfies_iff exact made s).mpr ⟨admitted, passes⟩

/-- Whatever happened to an index, and whatever passes are still on their way, a query that answers
    does so soundly. -/
theorem query_sound {c : IndexConfig} {parts : IndexParts} {now : Instant} {w : CodeIndex}
    (built : build c parts now = .ok w) (happenings : List Happening)
    (apart : Seed.Apart (seedsOf parts.registered c.pipeline.snippetChars (incoming happenings)))
    (store : ∀ store, parts.store = some store → store.isEmpty = true ∧ store.Steady)
    (request : QueryRequest) {results : List RankedResult}
    (answered : ((w.undergo happenings).query request).1 = .ok results) :
    ∃ intent, Query.classify request.text (w.undergo happenings).hints = .ok intent ∧
      SoundAnswer (w.undergo happenings) request intent results := by
  have sheltered := undergo_sheltered built happenings apart store
  have consistent := sheltered.tracked.consistent
  obtain ⟨intent, set, understood, made, answer⟩ := query_ok answered
  obtain ⟨lowered, exact⟩ := Query.classify_ok understood
  refine ⟨intent, understood, ?_⟩
  rcases answer with ⟨-, rfl⟩ | ⟨vector, -, answer⟩
  · exact .nil
  · obtain ⟨cs, gathered, rfl⟩ := answer_ok consistent sheltered.labelling lowered answer
    exact gathered.toEligible.sound consistent exact made

/-! ## A question while passes go on -/

/-- A question for functions in Python, of which there is one. -/
def functionQuestion : QueryRequest :=
  { text := "find the function", filters := [.language .python], topK := some 3 }

/-- The store looks at every record, and the question is answered. -/
theorem functionQuestion_answered :
    (smallIndex.undergo busyRun).state.vectors.store.pushesDown = true ∧ ∃ results,
      ((smallIndex.undergo busyRun).query functionQuestion).1 = .ok results ∧
        results.length = 1 := by
  have computed : (smallIndex.undergo busyRun).state.vectors.store.pushesDown = true ∧
      ((smallIndex.undergo busyRun).query functionQuestion).1.toOption.map List.length =
        some 1 := by
    decide +kernel
  obtain ⟨pushes, one⟩ := computed
  refine ⟨pushes, ?_⟩
  cases answer : ((smallIndex.undergo busyRun).query functionQuestion).1 with
  | error cause =>
      rw [answer] at one
      cases one
  | ok results =>
      rw [answer] at one
      exact ⟨results, rfl, Option.some.inj one⟩

theorem busyRun_query_sound : ∃ results intent,
    ((smallIndex.undergo busyRun).query functionQuestion).1 = .ok results ∧ results.length = 1 ∧
      SoundAnswer (smallIndex.undergo busyRun) functionQuestion intent results := by
  obtain ⟨-, results, answered, one⟩ := functionQuestion_answered
  obtain ⟨intent, -, sound⟩ := query_sound build_small busyRun busyRun_apart
    (fun _ given => by cases given) functionQuestion answered
  exact ⟨results, intent, answered, one, sound⟩

end CodeIndex

end CodeSearch

/-! ## Complete answers

Over a store that looks at every record, no symbol is lost whose name is asked for, and none at all
when patterns are: one that is not among the results has as many better ones before it as were asked
for. The names of an index are exact, so that every symbol with a key term for a name is a
candidate, and a candidate has the score of its symbol however it came in.
-/

namespace CodeSearch.CodeIndex

open Time (Instant)

variable {w : CodeIndex} {request : QueryRequest} {intent : QueryIntent} {set : FilterSet}
variable {query : Vector} {cs : Candidates} {results : List RankedResult}

/-- A symbol is among the results, or as many as are asked for stand before it. -/
def Placed (w : CodeIndex) (request : QueryRequest) (intent : QueryIntent) (query : Vector)
    (results : List RankedResult) (s : Symbol) : Prop :=
  (∃ r ∈ results, r.symbol = s) ∨
    results.length = w.topKOf request ∧ ∀ r ∈ results, r.Precedes (w.scoredFor intent query s)

/-- Some filter in force looks at patterns. -/
def AsksPatterns (request : QueryRequest) (intent : QueryIntent) : Prop :=
  ∃ f, InForce request.filters intent.filters f ∧ f.type.looksAtPatterns = true

/-- What an answer does not lose: the held symbols that have all that the filters in force ask for
    and whose name is a term; when patterns are asked for, all that have it, so that the results are
    the best of these. -/
structure CompleteAnswer (w : CodeIndex) (request : QueryRequest) (intent : QueryIntent)
    (query : Vector) (results : List RankedResult) : Prop where
  scores : ∀ r ∈ results, r.score = (w.scoredFor intent query r.symbol).score
  named : ∀ s ∈ w.state.allSymbols, w.Satisfies request intent s →
    (Text.lower s.name ∈ intent.terms ∨ Text.lower s.qualifiedName ∈ intent.terms) →
      w.Placed request intent query results s
  patterned : AsksPatterns request intent → ∀ s ∈ w.state.allSymbols,
    w.Satisfies request intent s → w.Placed request intent query results s
  best : AsksPatterns request intent → ∀ matching : List Symbol, matching.Nodup →
    (∀ s, s ∈ matching ↔ s ∈ w.state.allSymbols ∧ w.Satisfies request intent s) →
      results = w.shown request (Ranking.rank w.config.ranking
        (matching.map fun s => (s, w.state.similarity query s)) intent w.state.feedback w.now
        (w.topKOf request))

/-- Where no results are asked for, none is lost. -/
theorem CompleteAnswer.nil (none : w.topKOf request = 0) :
    CompleteAnswer w request intent query [] := by
  have placed (s : Symbol) : w.Placed request intent query [] s :=
    .inr ⟨none.symm, fun _ none => absurd none List.not_mem_nil⟩
  refine ⟨fun _ none => absurd none List.not_mem_nil, fun s _ _ _ => placed s,
    fun _ s _ _ => placed s, fun _ matching _ _ => ?_⟩
  have empty (entries : List Ranking.Entry) : Ranking.rank w.config.ranking entries intent
      w.state.feedback w.now (w.topKOf request) = [] := by
    rw [List.eq_nil_iff_length_eq_zero, Ranking.rank_length, none, Nat.zero_min]
  rw [empty, shown]
  split
  · rfl
  · rfl

/-- Only types and functions have what filters on patterns ask for. -/
theorem Satisfies.kind {s : Symbol} (h : w.Satisfies request intent s)
    (asks : AsksPatterns request intent) : s.kind = .type ∨ s.kind = .function := by
  obtain ⟨f, inForce, looks⟩ := asks
  have found := FilterSet.found_of_patternsHold inForce looks h.patterns
  by_contra other
  refine found (if_neg ?_)
  simpa using other

section

variable (consistent : w.state.Consistent)
    (pushes : w.state.vectors.store.pushesDown = true)
    (exact : ∀ f ∈ intent.filters, ∀ g, (f == g) = true → f = g)
    (made : FilterSet.withInferred request.filters intent.filters = .ok set)

include consistent pushes exact made

/-- What is ranked are symbols with their own similarities, and all candidates that satisfy. -/
theorem Eligible.mem_entries (h : Eligible w set query cs) {s : Symbol} {similarity : Score} :
    (s, similarity) ∈ w.entries set cs ↔ Keyed.has cs s.id = true ∧ s ∈ w.state.allSymbols ∧
      w.Satisfies request intent s ∧ similarity = w.state.similarity query s := by
  rw [CodeIndex.mem_entries consistent, consistent.mem_allSymbols, satisfies_iff exact made]
  have held (similarity : Score) (inside : (s.id, similarity) ∈ cs)
      (here : w.state.symbol? s.id = some s) : set.matchesMetadata s.metadata = true ∧
        similarity = w.state.similarity query s := by
    obtain ⟨t, there, admitted, same⟩ := h.held _ inside
    rw [here] at there
    cases there
    exact ⟨admitted, same pushes⟩
  constructor
  · rintro ⟨inside, here, passes⟩
    obtain ⟨admitted, same⟩ := held similarity inside here
    exact ⟨Keyed.has_iff.mpr ⟨similarity, Keyed.get?_of_mem h.keys inside⟩, here,
      ⟨admitted, passes⟩, same⟩
  · rintro ⟨there, here, ⟨-, passes⟩, rfl⟩
    obtain ⟨similarity, found⟩ := Keyed.has_iff.mp there
    have inside := Keyed.mem_of_get? found
    obtain ⟨-, rfl⟩ := held similarity inside here
    exact ⟨inside, here, passes⟩

theorem Eligible.placed (h : Eligible w set query cs) {s : Symbol}
    (there : Keyed.has cs s.id = true) (here : s ∈ w.state.allSymbols)
    (satisfied : w.Satisfies request intent s) : w.Placed request intent query
      (w.resultsOf request intent set cs (w.topKOf request)) s := by
  have entry : (s, w.state.similarity query s) ∈ w.entries set cs :=
    (h.mem_entries consistent pushes exact made).mpr ⟨there, here, satisfied, rfl⟩
  obtain ⟨f, shown, same⟩ := w.shown_eq request (Ranking.rank w.config.ranking (w.entries set cs)
    intent w.state.feedback w.now (w.topKOf request))
  rw [resultsOf, shown]
  rcases Ranking.rank_complete (entries_ids consistent h.keys) entry with
    ⟨r, inside, symbol⟩ | ⟨full, before⟩
  · exact .inl ⟨f r, List.mem_map.mpr ⟨r, inside, rfl⟩, (same r).1.trans symbol⟩
  · refine .inr ⟨(List.length_map _).trans full, List.forall_mem_map.mpr fun r inside => ?_⟩
    rw [RankedResult.Precedes, (same r).1, (same r).2.1]
    exact before r inside

theorem Gathered.complete (h : Gathered w intent.terms set query cs) :
    CompleteAnswer w request intent query
      (w.resultsOf request intent set cs (w.topKOf request)) := by
  have patterns (asks : AsksPatterns request intent) : set.hasPatternFilters = true := by
    obtain ⟨f, inForce, looks⟩ := asks
    exact (FilterSet.hasPatternFilters_iff made).mpr
      ⟨f, (FilterSet.mem_merge exact).mpr inForce, looks⟩
  have gathered (asks : AsksPatterns request intent) {s : Symbol} (here : s ∈ w.state.allSymbols)
      (satisfied : w.Satisfies request intent s) : Keyed.has cs s.id = true := by
    have admitted := ((satisfies_iff exact made s).mp satisfied).1
    exact h.patterned s (consistent.mem_allSymbols.mp here) admitted (patterns asks)
      (satisfied.kind asks)
  refine ⟨?scores, ?named, ?patterned, ?best⟩
  case scores =>
    intro r inside
    obtain ⟨⟨s, similarity⟩, he, symbol, score⟩ := mem_resultsOf inside
    obtain ⟨-, -, -, rfl⟩ := (h.mem_entries consistent pushes exact made).mp he
    rw [score, symbol]
    rfl
  case named =>
    intro s here satisfied name
    have admitted := ((satisfies_iff exact made s).mp satisfied).1
    have there := h.named s (consistent.mem_allSymbols.mp here) admitted name
    exact h.toEligible.placed consistent pushes exact made there here satisfied
  case patterned =>
    intro asks s here satisfied
    exact h.toEligible.placed consistent pushes exact made (gathered asks here satisfied) here
      satisfied
  case best =>
    intro asks matching distinct all
    have ids : ((w.entries set cs).map (·.1.id)).Nodup := entries_ids consistent h.keys
    have perm : (w.entries set cs).Perm
        (matching.map fun s => (s, w.state.similarity query s)) := by
      refine (List.perm_ext_iff_of_nodup (List.Nodup.of_map _ ids) ?_).mpr fun e => ?_
      · exact distinct.map fun a b same => congrArg Prod.fst same
      · obtain ⟨s, similarity⟩ := e
        rw [h.mem_entries consistent pushes exact made, List.mem_map]
        constructor
        · rintro ⟨-, here, satisfied, rfl⟩
          exact ⟨s, (all s).mpr ⟨here, satisfied⟩, rfl⟩
        · rintro ⟨t, inside, same⟩
          cases same
          obtain ⟨here, satisfied⟩ := (all s).mp inside
          exact ⟨gathered asks here satisfied, here, satisfied, rfl⟩
    rw [resultsOf, Ranking.rank_perm perm ids]

end

/-- Over a store that looks at every record, whatever happened to an index and whatever passes are
    still on their way, a query that answers loses nothing that it has to find. -/
theorem query_complete {c : IndexConfig} {parts : IndexParts} {now : Instant} {w : CodeIndex}
    (built : build c parts now = .ok w) (happenings : List Happening)
    (apart : Seed.Apart (seedsOf parts.registered c.pipeline.snippetChars (incoming happenings)))
    (store : ∀ store, parts.store = some store → store.isEmpty = true ∧ store.Steady)
    (pushes : (w.undergo happenings).state.vectors.store.pushesDown = true)
    (request : QueryRequest) {results : List RankedResult}
    (answered : ((w.undergo happenings).query request).1 = .ok results) :
    ∃ intent vector, Query.classify request.text (w.undergo happenings).hints = .ok intent ∧
      ((w.undergo happenings).topKOf request ≠ 0 →
        (w.undergo happenings).embedQuery intent.expanded = .ok vector) ∧
      CompleteAnswer (w.undergo happenings) request intent vector results := by
  have sheltered := undergo_sheltered built happenings apart store
  have consistent := sheltered.tracked.consistent
  obtain ⟨intent, set, understood, made, answer⟩ := query_ok answered
  obtain ⟨lowered, exact⟩ := Query.classify_ok understood
  rcases answer with ⟨none, rfl⟩ | ⟨vector, embedded, answer⟩
  · exact ⟨intent, [], understood, fun some => absurd none some, .nil none⟩
  · obtain ⟨cs, gathered, rfl⟩ := answer_ok consistent sheltered.labelling lowered answer
    exact ⟨intent, vector, understood, fun _ => embedded,
      gathered.complete consistent pushes exact made⟩

/-- A question is answered when its text, its filters and its vector are accepted. -/
theorem query_answers {given : FilterSet} {intent : QueryIntent} {set : FilterSet} {vector : Vector}
    (accepted : FilterSet.ofList request.filters = .ok given)
    (understood : Query.classify request.text w.hints = .ok intent)
    (made : FilterSet.withInferred request.filters intent.filters = .ok set)
    (embedded : w.embedQuery intent.expanded = .ok vector)
    (valid : vector.validate w.state.vectors.store.dimension = .ok ()) :
    ∃ results, (w.query request).1 = .ok results := by
  rw [hints] at understood
  simp only [CodeIndex.query, discard, Functor.mapConst, Except.map, Function.comp, Except.mapError,
    bind, Except.bind, pure, Except.pure, accepted, understood, made]
  split
  · exact ⟨[], rfl⟩
  · obtain ⟨similar, searched⟩ := vectorCandidates_total valid set
      (request.topK.getD w.config.query.defaultTopK)
    simp only [embedded, answer, searched, bind, Except.bind, pure, Except.pure]
    exact ⟨_, rfl⟩

theorem busyRun_query_complete : ∃ results intent vector,
    ((smallIndex.undergo busyRun).query functionQuestion).1 = .ok results ∧ results.length = 1 ∧
      CompleteAnswer (smallIndex.undergo busyRun) functionQuestion intent vector results := by
  obtain ⟨pushes, results, answered, one⟩ := functionQuestion_answered
  obtain ⟨intent, vector, -, -, complete⟩ := query_complete build_small busyRun busyRun_apart
    (fun _ given => by cases given) pushes functionQuestion answered
  exact ⟨results, intent, vector, answered, one, complete⟩

end CodeSearch.CodeIndex
