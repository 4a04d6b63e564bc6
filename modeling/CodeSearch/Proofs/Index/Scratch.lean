import CodeSearch.Proofs.Index.Run
import CodeSearch.Proofs.Symbol.Mentions
import Mathlib.Data.Set.Function

/-! # Indexing in increments and from scratch

After whatever was done to an index, a change that is indexed leaves the symbols of its file as an
index from scratch has them, up to one renaming of ids and up to stamps. Both come from readings
with the same key, and these are equal as long as equal hashes stand for equal texts and the trees
are those of one parser.
-/

namespace CodeSearch

open Syntax (Concrete Parsed)
open Time (Instant)

/-! ## Two renamings of the same symbols -/

theorem Relation.rename_rename {f g h : SymbolId → SymbolId} {r : Relation}
    (same : ∀ id, r.target = .resolved id → h (f id) = g id) :
    (r.rename f).rename h = r.rename g := by
  unfold Relation.rename
  cases target : r.target with
  | resolved id => simp only [same id target]
  | unresolved name => simp only [target]

theorem Symbol.rename_rename {f g h : SymbolId → SymbolId} {ids : List SymbolId} {s : Symbol}
    (same : ∀ id ∈ ids, h (f id) = g id) (own : s.id ∈ ids) (within : s.Within ids) :
    (s.rename f).rename h = s.rename g := by
  have parent : (s.parent.map f).map h = s.parent.map g := by
    cases known : s.parent with
    | none => rfl
    | some id => exact congrArg some (same id (within.parent id known))
  have relations : (s.relations.map (Relation.rename f)).map (Relation.rename h) =
      s.relations.map (Relation.rename g) := by
    rw [List.map_map]
    exact List.map_congr_left fun r hr =>
      Relation.rename_rename fun id target => same id (within.targets r hr id target)
  simp only [Symbol.rename, same s.id own, parent, relations]

theorem Renders.ids {f : SymbolId → SymbolId} {original held : List Symbol}
    (h : Renders f original held) {id : SymbolId} :
    id ∈ held.map (·.id) ↔ ∃ s ∈ original, f s.id = id := by
  have same : (held.map (·.id)).Perm ((original.map (Symbol.rename f)).map (·.id)) := by
    have ids := h.perm.map (·.id)
    rwa [List.map_map] at ids
  rw [same.mem_iff, List.map_map, List.mem_map]
  rfl

/-- From the id that a symbol has under one renaming to the one that it has under another. -/
def carry (f g : SymbolId → SymbolId) (original : List Symbol) (id : SymbolId) : SymbolId :=
  match original.find? fun s => f s.id == id with
  | some s => g s.id
  | none => id

theorem carry_eq {f g : SymbolId → SymbolId} {original held : List Symbol}
    (h : Renders f original held) {s : Symbol} (hs : s ∈ original) :
    carry f g original (f s.id) = g s.id := by
  unfold carry
  split
  · rename_i t found
    have same : f t.id = f s.id := by simpa using List.find?_some found
    rw [h.inj t (List.mem_of_find?_eq_some found) s hs same]
  · rename_i absent
    have different := List.find?_eq_none.mp absent s hs
    simp at different

/-- Some symbols are others up to stamps and up to one renaming of the ids of symbols, of their
    parents and of what their relations point at. -/
def SameUpToIds (held scratch : List Symbol) : Prop :=
  ∃ f : SymbolId → SymbolId,
    Set.BijOn f { id | id ∈ held.map (·.id) } { id | id ∈ scratch.map (·.id) } ∧
    ((held.map (Symbol.rename f)).map Symbol.unstamped).Perm (scratch.map Symbol.unstamped)

/-- Two lists that render the same symbols are the same up to ids. -/
theorem Renders.sameUpToIds {f g : SymbolId → SymbolId} {original held scratch : List Symbol}
    (hf : Renders f original held) (hg : Renders g original scratch)
    (closed : Extract.Closed original) : SameUpToIds held scratch := by
  let h := carry f g original
  have carried (s : Symbol) (hs : s ∈ original) : h (f s.id) = g s.id := carry_eq hf hs
  refine ⟨h, ⟨?mapsTo, ?injOn, ?surjOn⟩, ?perm⟩
  case mapsTo =>
    intro id inside
    obtain ⟨s, hs, rfl⟩ := hf.ids.mp inside
    exact hg.ids.mpr ⟨s, hs, (carried s hs).symm⟩
  case injOn =>
    intro a ha b hb same
    obtain ⟨s, hs, rfl⟩ := hf.ids.mp ha
    obtain ⟨t, ht, rfl⟩ := hf.ids.mp hb
    rw [carried s hs, carried t ht] at same
    rw [hg.inj s hs t ht same]
  case surjOn =>
    intro id inside
    obtain ⟨s, hs, rfl⟩ := hg.ids.mp inside
    exact ⟨f s.id, hf.ids.mpr ⟨s, hs, rfl⟩, carried s hs⟩
  case perm =>
    have known : ∀ id ∈ original.map (·.id), h (f id) = g id := by
      intro id inside
      obtain ⟨s, hs, rfl⟩ := List.mem_map.mp inside
      exact carried s hs
    have twice : (original.map (Symbol.rename f)).map (Symbol.rename h) =
        original.map (Symbol.rename g) := by
      rw [List.map_map]
      exact List.map_congr_left fun s hs =>
        Symbol.rename_rename known (List.mem_map.mpr ⟨s, hs, rfl⟩) (closed s hs)
    have stamps : (held.map (Symbol.rename h)).map Symbol.unstamped =
        (held.map Symbol.unstamped).map (Symbol.rename h) := by
      rw [List.map_map, List.map_map]
      rfl
    rw [stamps]
    exact (hf.perm.map _).trans (twice ▸ hg.perm.symm)

/-! ## Readings with one key -/

/-- Equal content hashes stand for equal texts. -/
def TextsApart (changes : List FileChange) : Prop :=
  ∀ a ∈ changes, ∀ b ∈ changes,
    Digest.contentHash a.source.text = Digest.contentHash b.source.text → a.source.text = b.source.text

/-- The trees that come with the texts are those that one parser makes of them. -/
def ParsedBy (parser : Language → String → Concrete) (registered : List Language)
    (changes : List FileChange) : Prop :=
  ∀ change ∈ changes, ∀ language, Language.resolve registered change.path change.hint = some language →
    change.source.tree language = parser language change.source.text

theorem reading_unique {parser : Language → String → Concrete} {registered : List Language}
    {changes : List FileChange} (apart : TextsApart changes)
    (parsed : ParsedBy parser registered changes) {r r' : Reading}
    (hr : r ∈ readings registered changes) (hr' : r' ∈ readings registered changes)
    (key : r.key = r'.key) : r = r' := by
  obtain ⟨a, ha, made⟩ := List.mem_filterMap.mp hr
  obtain ⟨b, hb, madeToo⟩ := List.mem_filterMap.mp hr'
  obtain ⟨l, resolved, rfl⟩ := Option.map_eq_some_iff.mp made
  obtain ⟨m, resolvedToo, rfl⟩ := Option.map_eq_some_iff.mp madeToo
  simp only [Reading.key, Parsed.ofSource, Syntax.ParseKey.mk.injEq] at key
  obtain ⟨path, hash, rfl⟩ := key
  have text : a.source.text = b.source.text := apart a ha b hb hash
  have tree : a.source.tree l = b.source.tree l := by
    rw [parsed a ha l resolved, parsed b hb l resolvedToo, text]
  simp only [Parsed.ofSource, path, text, tree]

/-! ## What is held after a success -/

theorem Success.held {changes : List FileChange} {w₀ : CodeIndex} {change : FileChange}
    {s : IndexState} (success : Success changes w₀ (.index change) s) :
    ∃ entry, s.unit? change.path = some entry ∧
      entry.unit.contentHash = Digest.contentHash change.source.text ∧
      Language.resolve w₀.registered change.path change.hint = some entry.unit.language := by
  cases success with
  | confirmed t entry held content language =>
      have resolved := t.resolved
      rw [t.change_eq] at held content resolved
      exact ⟨entry, held, content, language ▸ resolved⟩
  | committed d counts accepted =>
      have resolved := d.resolved
      have unit : d.update.unit = Pass.nextUnit w₀ d.change d.language
        (Digest.contentHash d.change.source.text) (Pass.held? w₀ d.change.path) := rfl
      rw [d.change_eq] at resolved unit
      have known := IndexState.commit_cases w₀.state d.update
      generalize w₀.state.commit d.update = result at known accepted ⊢
      cases known with
      | invalid | refused => cases accepted
      | replaced vectors valid written =>
          refine ⟨_, (IndexState.unit?_replaceUnit _ _ _).trans (if_pos ?_), ?_, ?_⟩
          · rw [unit]
            rfl
          · simp only [IndexState.nextEntry, unit]
            rfl
          · simp only [IndexState.nextEntry, unit]
            exact resolved

/-- Whether the content of a change is now served, as told by the result. -/
def isServed : Except PassError Ack → Bool
  | .ok ⟨_, _, _, .unchanged⟩ | .ok ⟨_, _, _, .indexed _⟩ => true
  | _ => false

theorem served_of_isServed {result : Except PassError Ack} (h : isServed result = true) :
    Served result := by
  unfold isServed at h
  split at h
  · exact ⟨_, rfl, .inl rfl⟩
  · rename_i counts
    exact ⟨_, rfl, .inr ⟨counts, rfl⟩⟩
  · cases h

/-! ## The last change -/

namespace CodeIndex

section

variable {c : IndexConfig} {registered : List Language} {changes : List FileChange} {w : CodeIndex}
variable {change : FileChange}

/-- After a success the symbols of the file render a reading with the key of the change. -/
theorem Running.served (running : Running c registered changes w)
    (apart : Seed.Apart (seedsOf registered c.pipeline.snippetChars changes))
    (inside : change ∈ changes) (served : Served (w.indexChange change).1) :
    ∃ r ∈ readings registered changes, ∃ language f,
      Language.resolve registered change.path change.hint = some language ∧
      r.key = ⟨change.path, Digest.contentHash change.source.text, language⟩ ∧
      Renders f (r.symbols c.pipeline.snippetChars)
        ((w.indexChange change).2.state.symbolsOf change.path) := by
  have known : ∀ other, Request.index change = .index other → other ∈ changes :=
    fun other same => Request.index.inj same ▸ inside
  have after : Running c registered changes (w.indexChange change).2 := running.process apart known
  obtain ⟨rfl, rfl, cached, tracked⟩ := running
  have processed := w.process_processed known cached
  obtain ⟨entry, held, content, resolved⟩ := (processed.success served).held
  obtain ⟨r, hr, key, f, renders⟩ := after.tracked.rendered change.path entry held
  exact ⟨r, hr, entry.unit.language, f, resolved, key.trans (by rw [content]), renders⟩

end

/-- Whatever was done to an index before, after a change that is indexed the symbols of its file
    are those that an index has which was given this change alone, up to ids and stamps. -/
theorem incremental_eq_scratch {c : IndexConfig} {parts freshParts : IndexParts}
    {now freshNow : Instant} {w fresh : CodeIndex} (built : build c parts now = .ok w)
    (builtFresh : build c freshParts freshNow = .ok fresh)
    (languages : freshParts.registered = parts.registered) (ops : List Operation)
    (change : FileChange)
    (apart : Seed.Apart (seedsOf parts.registered c.pipeline.snippetChars
      (changesOf (ops ++ [.index change]))))
    (texts : TextsApart (changesOf (ops ++ [.index change])))
    {parser : Language → String → Concrete}
    (trees : ParsedBy parser parts.registered (changesOf (ops ++ [.index change])))
    (served : Served ((w.performAll ops).indexChange change).1)
    (servedFresh : Served (fresh.indexChange change).1) :
    SameUpToIds (((w.performAll ops).indexChange change).2.state.symbolsOf change.path)
      ((fresh.indexChange change).2.state.symbolsOf change.path) := by
  have last : change ∈ changesOf (ops ++ [.index change]) :=
    mem_changesOf (List.mem_append_right _ List.mem_cons_self)
  have before : changesOf ops ⊆ changesOf (ops ++ [.index change]) := by
    intro other inside
    rw [changesOf, List.filterMap_append]
    exact List.mem_append_left _ inside
  have started : Running c parts.registered (changesOf (ops ++ [.index change])) w := .build built _
  have startedFresh : Running c freshParts.registered (changesOf (ops ++ [.index change])) fresh :=
    .build builtFresh _
  rw [languages] at startedFresh
  have running := started.performAll apart before
  obtain ⟨r, hr, l, f, resolved, key, held⟩ := running.served apart last served
  obtain ⟨r', hr', l', g, resolved', key', scratch⟩ := startedFresh.served apart last servedFresh
  have language : l = l' := Option.some.inj (resolved.symm.trans resolved')
  have same : r = r' := reading_unique texts trees hr hr' (key.trans (language ▸ key'.symm))
  subst same
  exact held.sameUpToIds scratch (Syntax.Parsed.symbols_closed _ _ _)

/-- A changed function, indexed after the one before and from scratch. -/
theorem shortRun_eq_scratch :
    SameUpToIds
      (((smallIndex.performAll [.index (oneFunction "f()"), .prune]).indexChange
        (oneFunction "f(x)")).2.state.symbolsOf "a.py")
      ((smallIndex.indexChange (oneFunction "f(x)")).2.state.symbolsOf "a.py") := by
  have texts : TextsApart (changesOf shortRun) := by
    intro a ha b hb
    simp only [changesOf, shortRun, List.filterMap_cons, List.filterMap_nil, List.mem_cons,
      List.not_mem_nil, or_false] at ha hb
    rcases ha with rfl | rfl <;> rcases hb with rfl | rfl <;> decide +kernel
  have trees : ParsedBy (fun language text => (oneFunction text).source.tree language) Language.all
      (changesOf shortRun) := by
    intro change inside language _
    simp only [changesOf, shortRun, List.filterMap_cons, List.filterMap_nil, List.mem_cons,
      List.not_mem_nil, or_false] at inside
    rcases inside with rfl | rfl <;> rfl
  exact incremental_eq_scratch build_small build_small rfl [.index (oneFunction "f()"), .prune]
    (oneFunction "f(x)") shortRun_apart texts trees (served_of_isServed (by decide +kernel))
    (served_of_isServed (by decide +kernel))

end CodeIndex

end CodeSearch
