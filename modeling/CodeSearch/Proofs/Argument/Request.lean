import CodeSearch.Argument.Request
import CodeSearch.Proofs.Except
import CodeSearch.Proofs.Filter
import CodeSearch.Proofs.Query.Terms

/-! # Requests that are answered

Every filter of a request comes from the reader of filters, whatever the shape in which it was
given, and the reader accepts only what is valid. So the filters of a request are accepted again
when a question is asked, also together with those that the question implies.
-/

namespace CodeSearch

/-! ## What is read is valid -/

theorem Filter.read_valid {key value : String} {f : Filter} (made : Filter.read key value = .ok f) :
    f.validate = .ok () := by
  unfold Filter.read at made
  split at made
  · cases made
  · dsimp only at made
    split at made
    · cases made
    · split at made
      · cases made
      · rename_i g _
        cases valid : g.validate with
        | error cause => simp [valid, Except.map] at made
        | ok _ =>
            simp only [valid, Except.map, Except.ok.injEq] at made
            exact made ▸ valid

namespace FilterSet

theorem entryOf_valid {f : Filter} (valid : f.validate = .ok ()) : ∃ e, entryOf f = .ok e := by
  have compiled (text : String) (ok : (Filter.globOf text).map (fun _ => ()) = .ok ()) :
      ∃ glob, Filter.globOf text = .ok glob := by
    cases made : Filter.globOf text with
    | error cause => simp [made, Except.map] at ok
    | ok glob => exact ⟨glob, rfl⟩
  simp only [entryOf, valid, bind, Except.bind]
  cases f with
  | pathInclude text | pathExclude text =>
      obtain ⟨glob, made⟩ := compiled text valid
      simp only [made]
      exact ⟨_, rfl⟩
  | _ => exact ⟨_, rfl⟩

theorem ofList_of_valid {given : List Filter} (valid : ∀ f ∈ given, f.validate = .ok ()) :
    ∃ set, ofList given = .ok set := by
  obtain ⟨entries, made⟩ := mapM_of_forall fun f inside => entryOf_valid (valid f inside)
  exact ⟨⟨entries⟩, by rw [ofList, made]; rfl⟩

end FilterSet

namespace Query

theorem impliedFilters_valid {category : QueryCategory} {words : List String} {f : Filter}
    (h : f ∈ impliedFilters category words) : f.validate = .ok () := by
  rcases List.mem_append.mp h with first | second
  · obtain ⟨l, -, rfl⟩ := Option.map_eq_some_iff.mp (Option.mem_toList.mp first)
    rfl
  · have chosen := Option.mem_toList.mp second
    split at chosen
    · obtain ⟨k, -, rfl⟩ := Option.map_eq_some_iff.mp chosen
      rfl
    · obtain ⟨p, -, rfl⟩ := Option.map_eq_some_iff.mp chosen
      rfl
    · cases chosen

theorem classify_valid {text : String} {hints : ContextHints} {intent : QueryIntent}
    (understood : classify text hints = .ok intent) :
    ∀ f ∈ intent.filters, f.validate = .ok () := by
  unfold classify at understood
  extract_lets trimmed cs category ws at understood
  split at understood
  · cases understood
  · have filters : intent.filters = impliedFilters category ws := by
      rw [← Except.ok.inj understood]
    exact fun f inside => impliedFilters_valid (filters ▸ inside)

end Query

/-- Filters that are valid are accepted together with those that a question implies. -/
theorem FilterSet.withInferred_of_valid {given : List Filter}
    (valid : ∀ f ∈ given, f.validate = .ok ()) {text : String} {hints : ContextHints}
    {intent : QueryIntent} (understood : Query.classify text hints = .ok intent) :
    ∃ set, withInferred given intent.filters = .ok set := by
  obtain ⟨-, exact⟩ := Query.classify_ok understood
  refine ofList_of_valid fun f inside => ?_
  rcases (mem_merge exact).mp inside with explicit | ⟨implied, -⟩
  · exact valid f explicit
  · exact Query.classify_valid understood f implied

/-! ## Filters of arguments -/

namespace Argument

section

variable {fs : List Filter}

theorem readFilter_valid {key text : String} {f : Filter} (made : readFilter key text = .ok f) :
    f.validate = .ok () :=
  Filter.read_valid (ok_of_mapError made)

theorem filtersOfValue_valid {key : String} {value : Json}
    (made : filtersOfValue key value = .ok fs) : ∀ f ∈ fs, f.validate = .ok () := by
  unfold filtersOfValue at made
  split at made
  · split at made
    · cases made
    · cases made
  · intro f inside
    obtain ⟨item, -, gives⟩ := mem_of_mapM made f inside
    obtain ⟨text, -, gives⟩ := ok_of_bind gives
    exact readFilter_valid gives

/-- Filters that are put together from several lists are valid when those of each list are. -/
theorem flatten_valid {α : Type} {xs : List α} {read : α → Except ArgumentError (List Filter)}
    (each : ∀ x fs, read x = .ok fs → ∀ f ∈ fs, f.validate = .ok ())
    (made : (xs.mapM read >>= fun lists => pure lists.flatten) = .ok fs) :
    ∀ f ∈ fs, f.validate = .ok () := by
  obtain ⟨lists, parts, made⟩ := ok_of_bind made
  cases made
  intro f inside
  obtain ⟨part, listed, within⟩ := List.mem_flatten.mp inside
  obtain ⟨x, -, gives⟩ := mem_of_mapM parts part listed
  exact each x part gives f within

theorem filtersOfMembers_valid {members : List (String × Json)}
    (made : filtersOfMembers members = .ok fs) : ∀ f ∈ fs, f.validate = .ok () :=
  flatten_valid (fun _ _ => filtersOfValue_valid) made

theorem filtersOfObject_valid {members : List (String × Json)}
    (made : filtersOfObject members = .ok fs) : ∀ f ∈ fs, f.validate = .ok () := by
  unfold filtersOfObject at made
  split at made
  · exact filtersOfValue_valid made
  · exact filtersOfMembers_valid made

theorem filtersOfItem_valid {item : Json} (made : filtersOfItem item = .ok fs) :
    ∀ f ∈ fs, f.validate = .ok () := by
  unfold filtersOfItem at made
  split at made
  · exact filtersOfObject_valid made
  · split at made
    · obtain ⟨f, read, made⟩ := ok_of_bind made
      cases made
      exact List.forall_mem_singleton.mpr (readFilter_valid read)
    · cases made
  · cases made

/-- Filters that are read from an argument are valid. -/
theorem filters_valid {v : Json} (made : filters v = .ok fs) : ∀ f ∈ fs, f.validate = .ok () := by
  unfold filters at made
  split at made
  · exact filtersOfMembers_valid made
  · exact flatten_valid (fun _ _ => filtersOfItem_valid) made

end

end Argument

/-! ## Requests -/

theorem QueryRequest.ofArguments_valid {args : Json} {request : QueryRequest}
    (made : ofArguments args = .ok request) : ∀ f ∈ request.filters, f.validate = .ok () := by
  obtain ⟨text, -, made⟩ := ok_of_bind made
  have same {filters : List Filter} (rest : (do
      let topK ← Argument.nat? args ["top_k", "limit"]
      let includePatterns ← Argument.flag? args ["include_patterns", "patterns"]
      pure { text, filters, topK, includePatterns := includePatterns.getD false }) =
        Except.ok request) : request.filters = filters := by
    obtain ⟨topK, -, rest⟩ := ok_of_bind rest
    obtain ⟨includePatterns, -, rest⟩ := ok_of_bind rest
    cases rest
    rfl
  split at made
  · obtain ⟨filters, given, made⟩ := ok_of_bind made
    exact same made ▸ Argument.filters_valid given
  · rw [same made]
    exact nofun

namespace CodeIndex

section

variable {w : CodeIndex} {request : QueryRequest}

theorem embedQuery_error {text : String} {cause : IndexError}
    (failed : w.embedQuery text = .error cause) :
    ∃ path detail, cause = .embedding path detail := by
  unfold embedQuery at failed
  split at failed
  · cases failed
    exact ⟨_, _, rfl⟩
  · cases failed
  · cases failed
    exact ⟨_, _, rfl⟩

theorem answer_error {intent : QueryIntent} {filters : FilterSet} {query : Vector} {topK : Nat}
    {cause : IndexError} (failed : w.answer request intent filters query topK = .error cause) :
    ∃ reason, cause = .vector reason := by
  rcases error_of_bind failed with failed | ⟨candidates, -, failed⟩
  · rcases error_of_bind failed with failed | ⟨found, -, failed⟩
    · obtain ⟨reason, -, rfl⟩ := error_of_mapError failed
      exact ⟨reason, rfl⟩
    · cases failed
  · cases failed

/-- A question whose filters are valid is not refused for a filter. -/
theorem query_valid (valid : ∀ f ∈ request.filters, f.validate = .ok ()) (cause : FilterError) :
    (w.query request).1 ≠ .error (.filter cause) := by
  intro failed
  obtain ⟨explicit, given⟩ := FilterSet.ofList_of_valid valid
  simp only [query, given, discard, Functor.mapConst, Except.map, Function.comp,
    Except.mapError, bind, Except.bind, pure, Except.pure] at failed
  cases understood : Query.classify request.text
      (.ofRecent w.state.recentPaths w.state.recentSymbols) with
  | error reason =>
      simp only [understood] at failed
      cases failed
  | ok intent =>
      obtain ⟨set, made⟩ := FilterSet.withInferred_of_valid valid understood
      simp only [understood, made] at failed
      split at failed
      · cases failed
      · cases embedded : w.embedQuery intent.expanded with
        | error reason =>
            simp only [embedded] at failed
            cases failed
            obtain ⟨path, detail, other⟩ := embedQuery_error embedded
            cases other
        | ok vector =>
            simp only [embedded] at failed
            obtain ⟨reason, other⟩ := answer_error failed
            cases other

end

end CodeIndex

namespace QueryRequest

/-- The filters of a request that was read from arguments are accepted as they are, and together
    with those that its text implies. So no index refuses the question for a filter. -/
theorem ofArguments_accepted {args : Json} {request : QueryRequest}
    (made : ofArguments args = .ok request) :
    (∃ set, FilterSet.ofList request.filters = .ok set ∧ set.filters = request.filters) ∧
      (∀ hints intent, Query.classify request.text hints = .ok intent →
        ∃ set, FilterSet.withInferred request.filters intent.filters = .ok set) ∧
      ∀ (w : CodeIndex) (cause : FilterError), (w.query request).1 ≠ .error (.filter cause) := by
  have valid := ofArguments_valid made
  obtain ⟨set, accepted⟩ := FilterSet.ofList_of_valid valid
  exact ⟨⟨set, accepted, (FilterSet.ofList_ok accepted).1⟩,
    fun hints intent understood => FilterSet.withInferred_of_valid valid understood,
    fun w cause => CodeIndex.query_valid valid cause⟩

/-- Filters that are written in a text: a pair, a pair in a list, and an object. -/
def nestedArguments : Json :=
  .obj [("filters", .str
      "[\"author= ada \", [\"path=src/*.py\"], \x7b\"min_confidence\": 0.5\x7d]"),
    ("query", .str "find the class in python")]

theorem nestedArguments_accepted : ∃ request set intent both,
    ofArguments nestedArguments = .ok request ∧
      request.filters.map (·.type) = [.author, .pathInclude, .minConfidence] ∧
      FilterSet.ofList request.filters = .ok set ∧
      Query.classify request.text {} = .ok intent ∧
      intent.filters.map (·.type) = [.language, .kind] ∧
      FilterSet.withInferred request.filters intent.filters = .ok both ∧
      ∀ (w : CodeIndex) (cause : FilterError), (w.query request).1 ≠ .error (.filter cause) := by
  have computed : (ofArguments nestedArguments).toOption.map (fun request =>
      (request.text, request.filters.map (·.type))) =
        some ("find the class in python", [.author, .pathInclude, .minConfidence]) := by
    decide +kernel
  have implied : (Query.classify "find the class in python" {}).toOption.map (fun intent =>
      intent.filters.map (·.type)) = some [.language, .kind] := by decide +kernel
  cases made : ofArguments nestedArguments with
  | error cause =>
      rw [made] at computed
      cases computed
  | ok request =>
      rw [made] at computed
      obtain ⟨text, types⟩ := Prod.mk.inj (Option.some.inj computed)
      rw [← text] at implied
      cases understood : Query.classify request.text {} with
      | error cause =>
          rw [understood] at implied
          cases implied
      | ok intent =>
          rw [understood] at implied
          obtain ⟨⟨set, accepted, -⟩, inferred, unrefused⟩ := ofArguments_accepted made
          obtain ⟨both, together⟩ := inferred {} intent understood
          exact ⟨request, set, intent, both, rfl, types, accepted, understood,
            Option.some.inj implied, together, unrefused⟩

end QueryRequest

end CodeSearch
