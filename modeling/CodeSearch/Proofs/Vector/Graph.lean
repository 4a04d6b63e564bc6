import CodeSearch.Proofs.Vector.Store

/-! # Records, live numbers and tombstones

Every live record has one vector in the graph, under a number that stands for its id, and every other
number that was given is that of a tombstone. Writing, dropping and building anew keep it so, in
whatever order they come. So a store with a graph reads like one that keeps the records alone, and
there are never more tombstones than it is told to put up with.
-/

namespace CodeSearch

namespace GraphStore

/-! ## The numbers of vectors -/

/-- The live numbers of a graph stand for the ids that have a vector, one for each, and all others
    that were given are tombstones. -/
structure Coherent (s : GraphStore) (has : SymbolId → Vector → Prop) : Prop where
  inverse : ∀ id number, Keyed.get? s.numberOf id = some number ↔ Keyed.get? s.idOf number = some id
  live : ∀ id, (∃ number, Keyed.get? s.numberOf id = some number) ↔ ∃ v, has id v
  given : ∀ number, number < s.nextNumber ↔
    (∃ id, Keyed.get? s.idOf number = some id) ∨ number ∈ s.deleted
  apart : ∀ number ∈ s.deleted, Keyed.get? s.idOf number = none
  once : s.deleted.Nodup
  numbered : s.nodes.map (·.number) = List.range s.nextNumber
  vectors : ∀ n ∈ s.nodes, ∀ id, Keyed.get? s.idOf n.number = some id → has id n.vector

section

variable {s : GraphStore} {has other : SymbolId → Vector → Prop}

theorem Coherent.congr (h : s.Coherent has) (same : ∀ id v, has id v ↔ other id v) :
    s.Coherent other := by
  refine ⟨h.inverse, fun id => ?_, h.given, h.apart, h.once, h.numbered, fun n hn id known => ?_⟩
  · simp only [h.live, same]
  · exact (same id n.vector).mp (h.vectors n hn id known)

/-- The records are no part of the graph. -/
theorem Coherent.withRecords (h : s.Coherent has) (records : Keyed SymbolId Record) :
    ({ s with records } : GraphStore).Coherent has :=
  ⟨h.inverse, h.live, h.given, h.apart, h.once, h.numbered, h.vectors⟩

theorem Coherent.empty (dimension : Nat) (params : GraphParams) (records : Keyed SymbolId Record) :
    ({ dimension, params, records } : GraphStore).Coherent fun _ _ => False := by
  constructor
  case inverse | live => simp [Keyed.get?]
  case given => simp [Keyed.get?]
  case apart => simp
  case once => exact List.nodup_nil
  case numbered => rfl
  case vectors => simp

theorem Coherent.bury (h : s.Coherent has) (id : SymbolId) :
    (s.bury id).Coherent fun other v => has other v ∧ other ≠ id := by
  unfold GraphStore.bury
  cases known : Keyed.get? s.numberOf id with
  | none =>
      refine h.congr fun other v => ⟨fun here => ⟨here, ?_⟩, And.left⟩
      rintro rfl
      obtain ⟨number, lives⟩ := (h.live other).mpr ⟨v, here⟩
      rw [known] at lives
      cases lives
  | some number =>
      have back : Keyed.get? s.idOf number = some id := (h.inverse id number).mp known
      constructor
      case inverse =>
        intro other n
        simp only [Keyed.get?_erase]
        by_cases sameId : other = id
        · subst sameId
          by_cases sameNumber : n = number
          · simp [sameNumber]
          · have different : Keyed.get? s.idOf n ≠ some other := fun there =>
              sameNumber (Option.some.inj (((h.inverse other n).mpr there).symm.trans known))
            simp [sameNumber, different]
        · by_cases sameNumber : n = number
          · have different : Keyed.get? s.numberOf other ≠ some number := fun there =>
              sameId (Option.some.inj (((h.inverse other number).mp there).symm.trans back))
            simp [sameId, sameNumber, different]
          · simp [sameId, sameNumber, h.inverse]
      case live =>
        intro other
        simp only [Keyed.get?_erase]
        by_cases sameId : other = id
        · simp [sameId]
        · simp [sameId, h.live]
      case given =>
        intro n
        simp only [Keyed.get?_erase, h.given n, List.mem_append, List.mem_singleton]
        by_cases sameNumber : n = number
        · simp [sameNumber, back]
        · simp [sameNumber]
      case apart =>
        intro n dead
        simp only [Keyed.get?_erase]
        split
        · rfl
        · rename_i different
          exact h.apart n ((List.mem_append.mp dead).resolve_right (by simpa using different))
      case once =>
        refine List.nodup_append.mpr ⟨h.once, List.nodup_singleton _, ?_⟩
        intro n dead other here same
        have absent := h.apart n dead
        rw [same, List.mem_singleton.mp here, back] at absent
        cases absent
      case numbered => exact h.numbered
      case vectors =>
        intro n hn other there
        simp only [Keyed.get?_erase] at there
        split at there
        · cases there
        · rename_i different
          refine ⟨h.vectors n hn other there, ?_⟩
          rintro rfl
          have same := (h.inverse other n.number).mpr there
          rw [known] at same
          exact different (Option.some.inj same).symm

theorem Coherent.link (h : s.Coherent has) {id : SymbolId} (fresh : ∀ v, ¬has id v)
    (vector : Vector) : (s.link id vector).Coherent fun other v =>
      has other v ∨ other = id ∧ v = vector := by
  have unknown : Keyed.get? s.numberOf id = none := by
    cases known : Keyed.get? s.numberOf id with
    | none => rfl
    | some number =>
        obtain ⟨v, here⟩ := (h.live id).mp ⟨number, known⟩
        exact absurd here (fresh v)
  have above (number : Nat) (other : SymbolId) (known : Keyed.get? s.idOf number = some other) :
      number < s.nextNumber := (h.given number).mpr (.inl ⟨other, known⟩)
  constructor
  case inverse =>
    intro other n
    simp only [GraphStore.link, Keyed.get?_put]
    by_cases sameId : other = id
    · subst sameId
      by_cases sameNumber : n = s.nextNumber
      · simp [sameNumber]
      · have different : Keyed.get? s.idOf n ≠ some other := fun there => by
          rw [(h.inverse other n).mpr there] at unknown
          cases unknown
        simp [sameNumber, different, Ne.symm sameNumber]
    · by_cases sameNumber : n = s.nextNumber
      · have different : Keyed.get? s.numberOf other ≠ some s.nextNumber := fun there =>
          absurd (above _ _ ((h.inverse other _).mp there)) (Nat.lt_irrefl _)
        simp [sameId, sameNumber, different, Ne.symm sameId]
      · simp [sameId, sameNumber, h.inverse]
  case live =>
    intro other
    simp only [GraphStore.link, Keyed.get?_put]
    by_cases sameId : other = id
    · simp [sameId]
    · simp [sameId, h.live]
  case given =>
    intro n
    simp only [GraphStore.link, Keyed.get?_put, Nat.lt_succ_iff_lt_or_eq, h.given n]
    by_cases sameNumber : n = s.nextNumber
    · simp [sameNumber]
    · simp [sameNumber]
  case apart =>
    intro n dead
    have below : n < s.nextNumber := (h.given n).mpr (.inr dead)
    simp only [GraphStore.link, Keyed.get?_put, if_neg (Nat.ne_of_lt below)]
    exact h.apart n dead
  case once => exact h.once
  case numbered =>
    simp only [GraphStore.link, List.map_append, h.numbered, List.range_succ, List.map_cons,
      List.map_nil]
  case vectors =>
    intro n hn other there
    simp only [GraphStore.link, Keyed.get?_put] at there
    rcases List.mem_append.mp hn with old | new
    · have below : n.number < s.nextNumber := by
        rw [← List.mem_range, ← h.numbered]
        exact List.mem_map_of_mem old
      rw [if_neg (Nat.ne_of_lt below)] at there
      exact .inl (h.vectors n old other there)
    · rw [List.mem_singleton.mp new] at there ⊢
      rw [if_pos rfl] at there
      exact .inr ⟨(Option.some.inj there).symm, rfl⟩

theorem Coherent.links (l : List Record) (distinct : (l.map (·.id)).Nodup) :
    ∀ {s : GraphStore} {has : SymbolId → Vector → Prop}, s.Coherent has →
      (∀ r ∈ l, ∀ v, ¬has r.id v) →
      (l.foldl (fun s r => s.link r.id r.vector) s).Coherent fun id v =>
        has id v ∨ ∃ r ∈ l, r.id = id ∧ r.vector = v := by
  induction l with
  | nil =>
      intro s has h _
      exact h.congr fun id v => by simp
  | cons r rest ih =>
      intro s has h fresh
      obtain ⟨first, others⟩ := List.nodup_cons.mp distinct
      have step := h.link (fresh r List.mem_cons_self) r.vector
      refine (ih others step fun other listed v here => ?_).congr fun id v => ?_
      · rcases here with before | ⟨same, -⟩
        · exact fresh other (List.mem_cons_of_mem _ listed) v before
        · exact first (List.mem_map.mpr ⟨other, listed, same⟩)
      · simp only [List.mem_cons, exists_eq_or_imp, or_assoc]
        refine or_congr_right (or_congr_left ?_)
        exact ⟨fun ⟨a, b⟩ => ⟨a.symm, b.symm⟩, fun ⟨a, b⟩ => ⟨a.symm, b.symm⟩⟩

end

/-! ## The graph of the records -/

/-- Every record is listed once, under its own id, and the live vectors are those of the records. -/
structure Sound (s : GraphStore) : Prop where
  distinct : (Keyed.keys s.records).Nodup
  own : ∀ id r, s.get? id = some r → r.id = id
  coherent : s.Coherent fun id v => ∃ r, s.get? id = some r ∧ r.vector = v

theorem Sound.ofParams (dimension : Nat) (params : GraphParams) :
    (GraphStore.ofParams dimension params).Sound where
  distinct := List.nodup_nil
  own := by simp [GraphStore.ofParams, GraphStore.get?, Keyed.get?]
  coherent := (Coherent.empty dimension params.orDefault []).congr fun id v => by
    simp [GraphStore.ofParams, GraphStore.get?, Keyed.get?]

section

variable {s : GraphStore}

theorem Sound.ids (h : s.Sound) :
    (Keyed.values s.records).map (·.id) = Keyed.keys s.records := by
  simp only [Keyed.values, Keyed.keys, List.map_map]
  exact List.map_congr_left fun e inside =>
    h.own e.1 e.2 (Keyed.get?_of_mem h.distinct inside)

theorem rebuild_deleted (s : GraphStore) : s.rebuild.deleted = [] := by
  unfold rebuild
  exact List.foldlRecOn (motive := fun g : GraphStore => g.deleted = []) _ _ rfl
    fun _ none _ _ => none

theorem Sound.rebuild (h : s.Sound) : s.rebuild.Sound := by
  have records : s.rebuild.records = s.records := s.rebuild_holding.records
  refine ⟨records ▸ h.distinct, fun id r held => h.own id r ?_, ?_⟩
  · rwa [GraphStore.get?, records] at held
  have listed (r : Record) : r ∈ (Keyed.values s.records).mergeSort (fun a b => !(b.id < a.id)) ↔
      ∃ id, s.get? id = some r := List.mem_mergeSort.trans (Keyed.mem_values h.distinct)
  have distinct : (((Keyed.values s.records).mergeSort fun a b => !(b.id < a.id)).map
      (·.id)).Nodup :=
    ((List.mergeSort_perm _ _).map _).nodup_iff.mpr (h.ids ▸ h.distinct)
  have built := Coherent.links _ distinct (Coherent.empty s.dimension s.params s.records)
    fun _ _ _ => id
  refine built.congr fun id v => ?_
  simp only [false_or, listed, GraphStore.get?, records]
  constructor
  · rintro ⟨r, ⟨other, held⟩, rfl, same⟩
    exact ⟨r, (h.own other r held).symm ▸ held, same⟩
  · rintro ⟨r, held, same⟩
    exact ⟨r, ⟨id, held⟩, h.own id r held, same⟩

theorem Sound.tidy (h : s.Sound) : s.tidy.Sound := by
  unfold GraphStore.tidy
  split
  · exact h.rebuild
  · exact h

theorem Sound.linked (h : s.Sound) (r : Record) : (s.linked r).Sound := by
  have records : (s.linked r).records = Keyed.put s.records r.id r := (s.linked_holding r).records
  have held (id : SymbolId) (other : Record) : (s.linked r).get? id = some other ↔
      id = r.id ∧ r = other ∨ id ≠ r.id ∧ s.get? id = some other := by
    rw [GraphStore.get?, records, Keyed.get?_put]
    by_cases same : id = r.id
    · simp [same]
    · simp [same, GraphStore.get?]
  refine ⟨records ▸ Keyed.nodup_put h.distinct r.id r, fun id other here => ?_, ?_⟩
  · rcases (held id other).mp here with ⟨rfl, rfl⟩ | ⟨-, before⟩
    · rfl
    · exact h.own id other before
  have replaced := ((h.coherent.bury r.id).link (fun _ here => here.2 rfl) r.vector).withRecords
    (Keyed.put ((s.bury r.id).link r.id r.vector).records r.id r)
  refine replaced.congr fun id v => ?_
  simp only [held]
  constructor
  · rintro (⟨⟨other, before, same⟩, different⟩ | ⟨rfl, rfl⟩)
    · exact ⟨other, .inr ⟨different, before⟩, same⟩
    · exact ⟨r, .inl ⟨rfl, rfl⟩, rfl⟩
  · rintro ⟨other, ⟨rfl, rfl⟩ | ⟨different, before⟩, same⟩
    · exact .inr ⟨rfl, same.symm⟩
    · exact .inl ⟨⟨other, before, same⟩, different⟩

theorem Sound.dropped (h : s.Sound) (id : SymbolId) : (s.dropped id).Sound := by
  have records : (s.dropped id).records = Keyed.erase s.records id := (s.dropped_holding id).records
  have held (other : SymbolId) (r : Record) : (s.dropped id).get? other = some r ↔
      s.get? other = some r ∧ other ≠ id := by
    rw [GraphStore.get?, records, Keyed.get?_erase]
    by_cases same : other = id
    · simp [same]
    · simp [same, GraphStore.get?]
  refine ⟨records ▸ Keyed.nodup_erase h.distinct id, fun other r here => ?_, ?_⟩
  · exact h.own other r ((held other r).mp here).1
  refine ((h.coherent.withRecords (Keyed.erase s.records id)).bury id).congr fun other v => ?_
  simp only [held]
  constructor
  · rintro ⟨⟨r, before, same⟩, different⟩
    exact ⟨r, ⟨before, different⟩, same⟩
  · rintro ⟨r, ⟨before, different⟩, same⟩
    exact ⟨⟨r, before, same⟩, different⟩

theorem Sound.delete (h : s.Sound) (id : SymbolId) : (s.delete id).2.Sound := by
  rw [delete_eq]
  cases Keyed.has s.records id with
  | true => exact (h.dropped id).tidy
  | false => exact h.dropped id

end

end GraphStore

end CodeSearch
