import CodeSearch.Proofs.Index.Tracking
import CodeSearch.Proofs.Sorting
import CodeSearch.Proofs.Vector.Store

/-! # What is embedded

A selection takes as many symbols of a file as the policy allows, those that are wanted most, and
leaves them in their order. A symbol that is told to be unchanged is embedded by the same text as
before, as long as equal hashes stand for equal texts of nodes: its hash is that of the text of a
node, and its snippet a part of that text.
-/

namespace CodeSearch

open Syntax (Parsed)
open SymbolDiff (Unchanged)

/-! ## Choosing symbols -/

namespace Chunking

/-- One of two numbered symbols is embedded rather than the other: its kind comes first among those
    that are embedded, or it has the same kind and comes first itself. -/
def Sooner (c : Chunking) (e f : Symbol × Nat) : Prop :=
  c.kinds.idxOf e.1.kind < c.kinds.idxOf f.1.kind ∨
    c.kinds.idxOf e.1.kind = c.kinds.idxOf f.1.kind ∧ e.2 < f.2

/-- The numbered symbols whose kind is embedded. -/
def wanted (c : Chunking) (symbols : List Symbol) : List (Symbol × Nat) :=
  symbols.zipIdx.filter fun e => c.kinds.contains e.1.kind

/-- A numbered symbol as a candidate. -/
def candidateOf (c : Chunking) (e : Symbol × Nat) : Candidate :=
  ⟨c.kinds.idxOf e.1.kind, e.2, e.1⟩

theorem findIdx?_kind (kinds : List SymbolKind) (kind : SymbolKind) :
    kinds.findIdx? (· == kind) = if kinds.contains kind then some (kinds.idxOf kind) else none := by
  by_cases inside : kind ∈ kinds
  · rw [if_pos (List.contains_iff_mem.mpr inside), List.findIdx?_eq_some_iff_findIdx_eq]
    exact ⟨List.idxOf_lt_length_of_mem inside, rfl⟩
  · rw [if_neg (mt List.contains_iff_mem.mp inside), List.findIdx?_eq_none_iff]
    exact fun other known => beq_eq_false_iff_ne.mpr fun same => inside (same ▸ known)

theorem candidates_eq (c : Chunking) (symbols : List Symbol) :
    c.candidates symbols = (c.wanted symbols).map c.candidateOf := by
  rw [candidates, wanted, ← List.filterMap_eq_map, List.filterMap_filter]
  refine List.filterMap_congr fun ⟨s, place⟩ _ => ?_
  simp only [findIdx?_kind]
  split
  · rfl
  · rfl

theorem wanted_ascending (c : Chunking) (symbols : List Symbol) :
    (c.wanted symbols).Pairwise fun e f => e.2 < f.2 := by
  have numbers : (symbols.zipIdx.map (·.2)).Pairwise (· < ·) := by
    rw [List.zipIdx_map_snd]
    exact List.pairwise_lt_range'
  exact (List.pairwise_map.mp numbers).filter _

theorem Candidate.wantedLe_iff {a b : Candidate} : a.wantedLe b = true ↔
    a.priority < b.priority ∨ a.priority = b.priority ∧ a.place ≤ b.place := by
  unfold Candidate.wantedLe
  split
  · rename_i same
    simp [same]
  · rename_i different
    simp [different]

theorem wantedLe_total (a b : Candidate) : (a.wantedLe b || b.wantedLe a) = true := by
  rw [Bool.or_eq_true, Candidate.wantedLe_iff, Candidate.wantedLe_iff]
  omega

theorem wantedLe_trans (a b d : Candidate) (first : a.wantedLe b = true)
    (second : b.wantedLe d = true) : a.wantedLe d = true := by
  rw [Candidate.wantedLe_iff] at *
  omega

theorem placeLe_total (a b : Candidate) : (a.placeLe b || b.placeLe a) = true := by
  unfold Candidate.placeLe
  simpa using Nat.le_total a.place b.place

theorem placeLe_trans (a b d : Candidate) (first : a.placeLe b = true)
    (second : b.placeLe d = true) : a.placeLe d = true :=
  decide_eq_true (Nat.le_trans (of_decide_eq_true first) (of_decide_eq_true second))

/-- The candidates that are selected. -/
def chosen (c : Chunking) (symbols : List Symbol) : List Candidate :=
  if (c.candidates symbols).length ≤ c.maxEmbeddings then c.candidates symbols
  else (((c.candidates symbols).mergeSort Candidate.wantedLe).take c.maxEmbeddings).mergeSort
    Candidate.placeLe

theorem select_eq (c : Chunking) (symbols : List Symbol) :
    c.select symbols = (c.chosen symbols).map (·.symbol) := rfl

theorem candidates_ascending (c : Chunking) (symbols : List Symbol) :
    (c.candidates symbols).Pairwise fun a b => a.place < b.place := by
  rw [candidates_eq]
  exact List.pairwise_map.mpr (c.wanted_ascending symbols)

/-- In the order of their places, the candidates that are selected stand as they stood before. -/
theorem chosen_sublist (c : Chunking) (symbols : List Symbol) :
    (c.chosen symbols).Sublist (c.candidates symbols) := by
  unfold chosen
  split
  · exact .refl _
  · -- the first of them by preference are, up to order, a sublist in the order of the places
    have part := (List.take_sublist c.maxEmbeddings
      ((c.candidates symbols).mergeSort Candidate.wantedLe)).subperm.trans
        (List.mergeSort_perm _ _).subperm
    obtain ⟨kept, perm, sub⟩ := part
    have ascending := (c.candidates_ascending symbols).sublist sub
    have sorted : (((c.candidates symbols).mergeSort Candidate.wantedLe).take
        c.maxEmbeddings).mergeSort Candidate.placeLe = kept := by
      rw [mergeSort_eq_of_perm placeLe_trans placeLe_total perm.symm fun a ha b hb => ?_]
      · exact List.mergeSort_of_pairwise (ascending.imp fun less => decide_eq_true less.le)
      · intro first second
        have places : (kept.map (·.place)).Nodup :=
          (List.pairwise_map.mpr ascending).imp Nat.ne_of_lt
        exact List.inj_on_of_nodup_map places (perm.mem_iff.mpr ha) (perm.mem_iff.mpr hb)
          (Nat.le_antisymm (of_decide_eq_true first) (of_decide_eq_true second))
    rw [sorted]
    exact sub

theorem length_chosen (c : Chunking) (symbols : List Symbol) :
    (c.chosen symbols).length = min c.maxEmbeddings (c.candidates symbols).length := by
  unfold chosen
  split
  · rename_i few
    exact (min_eq_right few).symm
  · rw [List.length_mergeSort, List.length_take, List.length_mergeSort]

/-- No candidate that is left out is wanted more than one that is selected. -/
theorem wantedLe_of_chosen {c : Chunking} {symbols : List Symbol} {a b : Candidate}
    (kept : a ∈ c.chosen symbols) (candidate : b ∈ c.candidates symbols)
    (out : b ∉ c.chosen symbols) : a.wantedLe b = true := by
  unfold chosen at kept out
  split at kept
  · rename_i few
    rw [if_pos few] at out
    exact absurd candidate out
  · rename_i many
    rw [if_neg many, List.mem_mergeSort] at out
    rw [List.mem_mergeSort] at kept
    have sorted : b ∈ (c.candidates symbols).mergeSort Candidate.wantedLe :=
      List.mem_mergeSort.mpr candidate
    rw [← List.take_append_drop c.maxEmbeddings (List.mergeSort _ _)] at sorted
    exact le_of_take_of_drop (List.pairwise_mergeSort wantedLe_trans wantedLe_total _) kept
      ((List.mem_append.mp sorted).resolve_left out)

theorem length_candidates (c : Chunking) (symbols : List Symbol) :
    (c.candidates symbols).length = symbols.countP fun s => c.kinds.contains s.kind := by
  rw [candidates_eq, List.length_map, wanted, ← List.countP_eq_length_filter]
  calc
    symbols.zipIdx.countP (fun e => c.kinds.contains e.1.kind)
      = (symbols.zipIdx.map (·.1)).countP fun s => c.kinds.contains s.kind := by
        rw [List.countP_map]
        rfl
    _ = symbols.countP fun s => c.kinds.contains s.kind := by rw [List.zipIdx_map_fst]

theorem sooner_of_wantedLe {c : Chunking} {e f : Symbol × Nat} (apart : e.2 ≠ f.2)
    (wanted : (c.candidateOf e).wantedLe (c.candidateOf f) = true) : c.Sooner e f :=
  (Candidate.wantedLe_iff.mp wanted).imp_right fun ⟨same, place⟩ =>
    ⟨same, Nat.lt_of_le_of_ne place apart⟩

theorem exists_selected (c : Chunking) (symbols : List Symbol) : ∃ selected : List (Symbol × Nat),
    selected.Sublist (c.wanted symbols) ∧ c.chosen symbols = selected.map c.candidateOf := by
  have part := c.chosen_sublist symbols
  rw [candidates_eq] at part
  exact List.sublist_map_iff.mp part

theorem select_sublist (c : Chunking) (symbols : List Symbol) :
    (c.select symbols).Sublist symbols := by
  obtain ⟨selected, sub, same⟩ := c.exists_selected symbols
  have numbered : (selected.map (·.1)).Sublist (symbols.zipIdx.map (·.1)) :=
    (sub.trans List.filter_sublist).map _
  rw [List.zipIdx_map_fst] at numbered
  rwa [select_eq, same, List.map_map]

theorem select_subset (c : Chunking) (symbols : List Symbol) : c.select symbols ⊆ symbols :=
  (c.select_sublist symbols).subset

theorem select_length (c : Chunking) (symbols : List Symbol) :
    (c.select symbols).length ≤ c.maxEmbeddings := by
  rw [select_eq, List.length_map, length_chosen]
  exact Nat.min_le_left ..

/-- Of the symbols whose kind is embedded, as many are selected as the policy allows, and in the
    order in which they stand. Each of them is embedded sooner than any that is left out. -/
theorem select_best (c : Chunking) (symbols : List Symbol) :
    (c.select symbols).Sublist symbols ∧
      (c.select symbols).length =
        min c.maxEmbeddings (symbols.countP fun s => c.kinds.contains s.kind) ∧
      ∃ selected : List (Symbol × Nat), selected.Sublist symbols.zipIdx ∧
        c.select symbols = selected.map (·.1) ∧ (∀ e ∈ selected, e.1.kind ∈ c.kinds) ∧
        ∀ e ∈ selected, ∀ f ∈ symbols.zipIdx, f.1.kind ∈ c.kinds → f ∉ selected →
          c.Sooner e f := by
  obtain ⟨selected, sub, same⟩ := c.exists_selected symbols
  have numbered : selected.Sublist symbols.zipIdx := sub.trans List.filter_sublist
  have picked : c.select symbols = selected.map (·.1) := by
    rw [select_eq, same, List.map_map]
    rfl
  refine ⟨c.select_sublist symbols, ?_, selected, numbered, picked, fun e he => ?_,
    fun e he f hf kind out => ?_⟩
  · rw [select_eq, List.length_map, length_chosen, length_candidates]
  · exact List.contains_iff_mem.mp (List.mem_filter.mp (sub.subset he)).2
  · have numbers : (symbols.zipIdx.map (·.2)).Nodup := by
      rw [List.zipIdx_map_snd]
      exact List.nodup_range'
    have apart : e.2 ≠ f.2 := fun equal =>
      out (List.inj_on_of_nodup_map numbers (numbered.subset he) hf equal ▸ he)
    have candidate : c.candidateOf f ∈ c.candidates symbols := by
      rw [candidates_eq]
      exact List.mem_map_of_mem (List.mem_filter.mpr ⟨hf, List.contains_iff_mem.mpr kind⟩)
    refine sooner_of_wantedLe apart (wantedLe_of_chosen ?_ candidate ?_)
    · exact same ▸ List.mem_map_of_mem he
    · rw [same]
      intro inside
      obtain ⟨g, hg, equal⟩ := List.mem_map.mp inside
      have place : g.2 = f.2 := congrArg Candidate.place equal
      exact out (List.inj_on_of_nodup_map numbers (numbered.subset hg) hf place ▸ hg)

end Chunking

/-! ## Embedders that always answer the same -/

namespace Embedder

/-- Whenever an answer would be accepted, each text has its own vector in it. -/
def Deterministic (e : Embedder) (vec : String → Vector) : Prop :=
  ∀ texts vectors, e.embed texts = .ok vectors → vectors.length = texts.length →
    (∀ v ∈ vectors, v.validate e.dimension = .ok ()) → vectors = texts.map vec

theorem embedChecked_ok {e : Embedder} {late : String} {texts : List String} {vectors : List Vector}
    (h : e.embedChecked late texts = .ok vectors) :
    e.embed texts = .ok vectors ∧ vectors.length = texts.length ∧
      ∀ v ∈ vectors, v.length = e.dimension := by
  unfold embedChecked at h
  split at h
  · cases h
  · cases h
  · rename_i answer answered
    split at h
    · rename_i accepted
      cases h
      unfold Embedding.checkBatch at accepted
      split at accepted
      · cases accepted
      · rename_i count
        split at accepted
        · cases accepted
        · rename_i right
          refine ⟨answered, not_not.mp count, fun v hv => ?_⟩
          simpa using List.find?_eq_none.mp right v hv
    · cases h

/-- Vectors that were accepted and are valid in a store are those of their texts. -/
theorem Deterministic.accepted {e : Embedder} {vec : String → Vector} (h : e.Deterministic vec)
    {late : String} {texts : List String} {vectors : List Vector}
    (answered : e.embedChecked late texts = .ok vectors) {dimension : Nat}
    (valid : ∀ v ∈ vectors, v.validate dimension = .ok ()) : vectors = texts.map vec := by
  obtain ⟨embedded, count, right⟩ := embedChecked_ok answered
  refine h texts vectors embedded count fun v hv => ?_
  exact Vector.validate_ok.mpr ⟨right v hv, (Vector.validate_ok.mp (valid v hv)).2⟩

end Embedder

/-! ## Texts of symbols -/

/-- The texts of all nodes of what some changes are read as. -/
def nodeTexts (registered : List Language) (changes : List FileChange) : List String :=
  (readings registered changes).flatMap (·.parsed.texts)

/-- Equal content hashes stand for equal texts of nodes. -/
def NodesApart (registered : List Language) (changes : List FileChange) : Prop :=
  ∀ a ∈ nodeTexts registered changes, ∀ b ∈ nodeTexts registered changes,
    Digest.contentHash a = Digest.contentHash b → a = b

/-- The hash and the snippet of a symbol come from one of some texts. -/
def Symbol.Quotes (texts : List String) (snippetChars : Nat) (s : Symbol) : Prop :=
  ∃ text ∈ texts, s.bodyHash = Digest.contentHash text ∧ s.snippet = Text.takeChars snippetChars text

/-- What a symbol quotes depends neither on its id nor on its stamp. -/
theorem Symbol.Quotes.unstamped {texts : List String} {snippetChars : Nat} {s t : Symbol}
    (h : t.Quotes texts snippetChars) {f : SymbolId → SymbolId}
    (same : s.unstamped = (t.rename f).unstamped) : s.Quotes texts snippetChars := by
  obtain ⟨text, known, hash, snippet⟩ := h
  have body : s.unstamped.bodyHash = (t.rename f).unstamped.bodyHash :=
    congrArg Symbol.bodyHash same
  have leading : s.unstamped.snippet = (t.rename f).unstamped.snippet :=
    congrArg Symbol.snippet same
  exact ⟨text, known, body.trans hash, leading.trans snippet⟩

/-- An unchanged symbol is embedded by the same text. -/
theorem Chunking.text_unchanged {registered : List Language} {changes : List FileChange}
    (apart : NodesApart registered changes) {snippetChars : Nat} {t s : Symbol}
    (old : t.Quotes (nodeTexts registered changes) snippetChars)
    (new : s.Quotes (nodeTexts registered changes) snippetChars) (unchanged : Unchanged t s)
    (c : Chunking) : c.text t = c.text s := by
  obtain ⟨a, ha, hash, snippet⟩ := old
  obtain ⟨b, hb, hash', snippet'⟩ := new
  have same : a = b := apart a ha b hb (hash.symm.trans (unchanged.bodyHash.trans hash'))
  have kind : t.kind = s.kind := congrArg Prod.fst unchanged.identity
  have name : t.qualifiedName = s.qualifiedName := congrArg Prod.snd unchanged.identity
  simp only [text, kind, name, unchanged.signature, snippet, snippet', same]

section

variable {registered : List Language} {snippetChars : Nat} {changes : List FileChange}

theorem Reading.quotes {r : Reading} (hr : r ∈ readings registered changes) {s : Symbol}
    (hs : s ∈ r.symbols snippetChars) : s.Quotes (nodeTexts registered changes) snippetChars := by
  obtain ⟨n, inside, rfl⟩ := List.mem_iff_getElem.mp hs
  obtain ⟨text, known, body⟩ :=
    (r.parsed.symbols_walked (.atPath r.path) snippetChars n inside).body
  exact ⟨text, List.mem_flatMap.mpr ⟨r, hr, known⟩, body⟩

theorem Tracked.quotes {s : IndexState} (tracked : Tracked registered snippetChars changes s)
    {path : String} {symbol : Symbol} (held : symbol ∈ s.symbolsOf path) :
    symbol.Quotes (nodeTexts registered changes) snippetChars := by
  cases heldUnit : s.unit? path with
  | none =>
      rw [IndexState.symbolsOf, heldUnit] at held
      cases held
  | some entry =>
      obtain ⟨r, hr, -, f, renders⟩ := tracked.rendered path entry heldUnit
      have rendered := renders.perm.subset (List.mem_map.mpr ⟨symbol, held, rfl⟩)
      obtain ⟨original, inside, same⟩ := List.mem_map.mp rendered
      exact (Reading.quotes hr inside).unstamped (congrArg Symbol.unstamped same).symm

end

section

variable {w₀ : CodeIndex} {request : Request} {changes : List FileChange}
variable {t : Task w₀ request} {parsed : Parsed}

theorem Read.plan_quotes (read : Read w₀.registered changes t.job.unit.parseKey parsed) {s : Symbol}
    (hs : s ∈ (t.plan parsed).symbols) :
    s.Quotes (nodeTexts w₀.registered changes) w₀.config.pipeline.snippetChars := by
  obtain ⟨e, he, -, -, same⟩ := Plan.of_origin hs
  obtain ⟨r, hr, -, extracted⟩ := read.reading
  have inside : e.unstamped ∈ r.symbols w₀.config.pipeline.snippetChars :=
    extracted ▸ List.mem_map.mpr ⟨e, he, rfl⟩
  exact (Reading.quotes hr inside).unstamped same

/-- A symbol of a plan that did not change is held under its id, and its text is the one that it is
    embedded by already. -/
theorem Tracked.plan_unchanged
    (tracked : Tracked w₀.registered w₀.config.pipeline.snippetChars changes w₀.state)
    (apart : Seed.Apart (seedsOf w₀.registered w₀.config.pipeline.snippetChars changes))
    (nodes : NodesApart w₀.registered changes)
    (read : Read w₀.registered changes t.job.unit.parseKey parsed) {s : Symbol}
    (hs : s ∈ (t.plan parsed).symbols)
    (kept : s.id ∉ Plan.changedIds t.job (t.extracted parsed)) :
    ∃ held, w₀.state.symbol? s.id = some held ∧
      w₀.config.chunking.text held = w₀.config.chunking.text s := by
  have comparable := tracked.comparable apart read
  have planned := hs
  rw [Task.plan, Plan.of_symbols] at planned
  obtain ⟨current, inside, rfl⟩ := List.mem_map.mp planned
  rw [Plan.keepStamp_id] at kept ⊢
  obtain ⟨old, hold, unchanged⟩ := SymbolDiff.unchanged_of_current comparable inside kept
  rw [t.old_eq] at hold
  obtain ⟨held, -⟩ := tracked.consistent.mem_symbolsOf.mp hold
  refine ⟨old, unchanged.id ▸ held, ?_⟩
  obtain ⟨time, author, same⟩ :=
    Plan.keepStamp_rest (Plan.changedIds t.job (t.extracted parsed)) t.job.old current
  have new := read.plan_quotes hs
  rw [same] at new ⊢
  exact Chunking.text_unchanged nodes (tracked.quotes hold) new
    ⟨unchanged.id, unchanged.identity, unchanged.bodyHash, unchanged.signature⟩ _

end

end CodeSearch
