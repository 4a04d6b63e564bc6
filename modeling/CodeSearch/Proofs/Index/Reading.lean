import CodeSearch.Index.Basic
import CodeSearch.Index.Pass
import CodeSearch.Proofs.Keyed
import CodeSearch.Proofs.Symbol.Comparison
import CodeSearch.Proofs.Symbol.Extraction
import CodeSearch.Proofs.Symbol.Stamps
import CodeSearch.Proofs.Syntax.ParseCache

/-! # Readings

What a change of a file is read as depends on the registered languages only. Over a run, a parsed
source that comes out of the cache is the reading of some change of the run, and the symbols of all
these readings are the pool from which every held symbol is taken.
-/

/-! ## What a plan holds

The symbols of a plan are the extracted ones under the ids that the comparison gives them, up to
stamps, and belong to the version that was read.
-/

namespace CodeSearch.Plan

open SymbolDiff

/-- Keeping the stamp changes nothing but time and author. -/
theorem keepStamp_rest (changed : List SymbolId) (old : List Symbol) (s : Symbol) :
    ∃ time author, keepStamp changed old s = { s with modifiedAt := time, author := author } := by
  unfold keepStamp
  split
  · exact ⟨s.modifiedAt, s.author, rfl⟩
  · split
    · rename_i previous _
      exact ⟨previous.modifiedAt, previous.author, rfl⟩
    · exact ⟨s.modifiedAt, s.author, rfl⟩

theorem keepStamp_id (changed : List SymbolId) (old : List Symbol) (s : Symbol) :
    (keepStamp changed old s).id = s.id := by
  obtain ⟨time, author, same⟩ := keepStamp_rest changed old s
  rw [same]

theorem keepStamp_unit (changed : List SymbolId) (old : List Symbol) (s : Symbol) :
    (keepStamp changed old s).unit = s.unit := by
  obtain ⟨time, author, same⟩ := keepStamp_rest changed old s
  rw [same]

theorem keepStamp_unstamped (changed : List SymbolId) (old : List Symbol) (s : Symbol) :
    (keepStamp changed old s).unstamped = s.unstamped := by
  obtain ⟨time, author, same⟩ := keepStamp_rest changed old s
  rw [same]
  rfl

section

variable {chunking : Chunking} {job : Job} {extracted : List Symbol}

/-- The ids of the symbols that are new or changed. -/
def changedIds (job : Job) (extracted : List Symbol) : List SymbolId :=
  (between job.old extracted).changed.map (·.id)

theorem of_symbols : (Plan.of chunking job extracted).symbols =
    (between job.old extracted).current.map (keepStamp (changedIds job extracted) job.old) := rfl

theorem of_ids : (Plan.of chunking job extracted).symbols.map (·.id) =
    (between job.old extracted).current.map (·.id) := by
  rw [of_symbols, List.map_map]
  exact List.map_congr_left fun s _ => keepStamp_id _ _ s

/-- A symbol of a plan is an extracted one under a new id, up to its stamp. -/
theorem of_origin {s : Symbol} (h : s ∈ (Plan.of chunking job extracted).symbols) :
    ∃ e ∈ extracted, s.id = (names job.old extracted).apply e.id ∧ s.unit = e.unit ∧
      s.unstamped = (e.rename (names job.old extracted).apply).unstamped := by
  rw [of_symbols] at h
  obtain ⟨c, hc, rfl⟩ := List.mem_map.mp h
  obtain ⟨e, he, rfl⟩ := List.mem_map.mp ((current_perm job.old extracted).subset hc)
  refine ⟨e, he, ?_, ?_, ?_⟩
  · rw [keepStamp_id]
    rfl
  · rw [keepStamp_unit]
    rfl
  · rw [keepStamp_unstamped]
    rfl

theorem of_unstamped : ((Plan.of chunking job extracted).symbols.map Symbol.unstamped).Perm
    ((extracted.map Symbol.unstamped).map (Symbol.rename (names job.old extracted).apply)) := by
  have plan : (Plan.of chunking job extracted).symbols.map Symbol.unstamped =
      (between job.old extracted).current.map Symbol.unstamped := by
    rw [of_symbols, List.map_map]
    exact List.map_congr_left fun s _ => keepStamp_unstamped _ _ s
  have renamed : (extracted.map Symbol.unstamped).map (Symbol.rename (names job.old extracted).apply) =
      (extracted.map (names job.old extracted).applyTo).map Symbol.unstamped := by
    rw [List.map_map, List.map_map]
    rfl
  rw [plan, renamed]
  exact (current_perm job.old extracted).map _

end

end CodeSearch.Plan

/-! ## What changes are read as -/

namespace CodeSearch

open Syntax

/-- A parsed source at a path. -/
structure Reading where
  path : String
  parsed : Parsed

namespace Reading

/-- The key under which a reading is kept. -/
def key (r : Reading) : ParseKey :=
  ⟨r.path, r.parsed.contentHash, r.parsed.language⟩

/-- The symbols of a reading, without stamps. -/
def symbols (r : Reading) (snippetChars : Nat) : List Symbol :=
  r.parsed.symbols (.atPath r.path) snippetChars

end Reading

/-- What a change is read as, if its language is registered. -/
def FileChange.reading? (registered : List Language) (c : FileChange) : Option Reading :=
  (Language.resolve registered c.path c.hint).map fun language =>
    ⟨c.path, Parsed.ofSource c.source language (Digest.contentHash c.source.text)⟩

/-- What some changes are read as. -/
def readings (registered : List Language) (changes : List FileChange) : List Reading :=
  changes.filterMap (·.reading? registered)

/-- The symbols that some changes bring. -/
def pool (registered : List Language) (snippetChars : Nat) (changes : List FileChange) :
    List Symbol :=
  (readings registered changes).flatMap (·.symbols snippetChars)

section

variable {registered : List Language} {snippetChars : Nat} {changes : List FileChange}

theorem mem_readings {change : FileChange} (inside : change ∈ changes) {language : Language}
    (resolved : Language.resolve registered change.path change.hint = some language) :
    ⟨change.path, Parsed.ofSource change.source language (Digest.contentHash change.source.text)⟩ ∈
      readings registered changes := by
  refine List.mem_filterMap.mpr ⟨change, inside, ?_⟩
  rw [FileChange.reading?, resolved, Option.map_some]

theorem mem_pool {r : Reading} (hr : r ∈ readings registered changes) {s : Symbol}
    (hs : s ∈ r.symbols snippetChars) : s ∈ pool registered snippetChars changes :=
  List.mem_flatMap.mpr ⟨r, hr, hs⟩

theorem length_le_pool {r : Reading} (hr : r ∈ readings registered changes) :
    (r.symbols snippetChars).length ≤ (pool registered snippetChars changes).length := by
  have part : r.symbols snippetChars ∈ (readings registered changes).map (·.symbols snippetChars) :=
    List.mem_map.mpr ⟨r, hr, rfl⟩
  rw [pool, List.flatMap_def]
  exact (List.sublist_flatten_of_mem part).length_le

end

/-! ## The cache -/

section

variable {registered : List Language} {changes : List FileChange}

/-- Every entry is a reading of some change, under its key. -/
def Cached (registered : List Language) (changes : List FileChange) (cache : ParseCache) : Prop :=
  ∀ key parsed, (key, parsed) ∈ cache.entries →
    ∃ r ∈ readings registered changes, r.key = key ∧ r.parsed = parsed

theorem Cached.empty (capacity : Nat) : Cached registered changes (.ofCapacity capacity) :=
  fun _ _ h => absurd h List.not_mem_nil

theorem Cached.erasePath {cache : ParseCache} (h : Cached registered changes cache) (path : String) :
    Cached registered changes (cache.erasePath path).2 :=
  fun key parsed inside => h key parsed (List.mem_of_mem_filter inside)

/-- What is used last moves to the front of the cache. -/
theorem Cached.front {cache : ParseCache} (h : Cached registered changes cache) {r : Reading}
    (hr : r ∈ readings registered changes) {entries : Keyed ParseKey Parsed}
    (front : entries ⊆ (r.key, r.parsed) :: Keyed.erase cache.entries r.key) :
    ∀ key parsed, (key, parsed) ∈ entries →
      ∃ r ∈ readings registered changes, r.key = key ∧ r.parsed = parsed := by
  intro key parsed inside
  rcases List.mem_cons.mp (front inside) with same | inRest
  · cases same
    exact ⟨r, hr, rfl, rfl⟩
  · exact h key parsed (List.mem_of_mem_filter inRest)

/-- A parsed source is the reading of some change under a key. -/
def Read (registered : List Language) (changes : List FileChange) (key : ParseKey)
    (parsed : Parsed) : Prop :=
  ∃ r ∈ readings registered changes, r.key = key ∧ r.parsed = parsed

/-- Through the cache, a change is read as some change with its key is, be it another one. -/
theorem Cached.parse {cache : ParseCache} (h : Cached registered changes cache)
    (options : ParseOptions) {change : FileChange} (inside : change ∈ changes) {language : Language}
    (resolved : Language.resolve registered change.path change.hint = some language)
    {key : ParseKey} (key_eq : key = ⟨change.path, Digest.contentHash change.source.text, language⟩) :
    Cached registered changes (cache.parse options change.source key).2 ∧
      ∀ parsed, (cache.parse options change.source key).1 = .ok parsed →
        Read registered changes key parsed := by
  have accepted {p parsed : Parsed} (h : options.accept p = .ok parsed) : p = parsed := by
    unfold ParseOptions.accept at h
    split at h
    · cases h
    · exact Except.ok.inj h
  subst key_eq
  cases held : Keyed.get? cache.entries
      ⟨change.path, Digest.contentHash change.source.text, language⟩ with
  | some p =>
      obtain ⟨r, hr, key, rfl⟩ := h _ _ (Keyed.mem_of_get? held)
      rw [ParseCache.parse_of_held held, ← key]
      exact ⟨h.front hr (List.Subset.refl _), fun parsed ok => ⟨r, hr, rfl, accepted ok⟩⟩
  | none =>
      have hr := mem_readings inside resolved
      cases made : parse? options.registered change.source
          ⟨change.path, Digest.contentHash change.source.text, language⟩ with
      | error cause =>
          rw [ParseCache.parse_of_unreadable held made]
          exact ⟨h, fun parsed ok => by cases ok⟩
      | ok p =>
          obtain ⟨-, rfl⟩ := parse?_eq_ok made
          rw [ParseCache.parse_of_read held made]
          exact ⟨h.front hr (List.take_subset _ _), fun parsed ok => ⟨_, hr, rfl, accepted ok⟩⟩

end

end CodeSearch
