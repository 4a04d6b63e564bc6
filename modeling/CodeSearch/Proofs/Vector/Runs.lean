import CodeSearch.Proofs.Score
import CodeSearch.Proofs.Vector.Graph
import Mathlib.Data.List.Induction

/-! # Runs over a store

Whatever is written, dropped and built anew, a store with a graph holds what was written last, like
one that looks at every record. Its graph never has more tombstones than the store puts up with, and
none when there is no room for more vectors. How many that are is found out in single precision, so
the quotient can be rounded down to the ratio.
-/

namespace CodeSearch

/-- What is done to a store. -/
inductive StoreOp where
  | upsert (r : Record)
  | delete (id : SymbolId)
  | rebuild
  deriving Repr

namespace StoreOp

/-- The records after an operation on a store of vectors of one dimension. -/
def records (dimension : Nat) (before : Keyed SymbolId Record) : StoreOp → Keyed SymbolId Record
  | upsert r =>
    match r.vector.validate dimension with
    | .ok _ => Keyed.put before r.id r
    | .error _ => before
  | delete id => Keyed.erase before id
  | rebuild => before

/-- Whether an operation decides what is held under an id. -/
def Touches (dimension : Nat) (id : SymbolId) : StoreOp → Prop
  | upsert r => r.id = id ∧ r.vector.validate dimension = .ok ()
  | delete other => other = id
  | rebuild => False

/-- A record is accepted at some time, and its id is not touched after that. -/
def LastWritten (dimension : Nat) (ops : List StoreOp) (r : Record) : Prop :=
  ∃ before after, ops = before ++ upsert r :: after ∧ r.vector.validate dimension = .ok () ∧
    ∀ op ∈ after, ¬op.Touches dimension r.id

section

variable {dimension : Nat} {ops : List StoreOp} {op : StoreOp} {r : Record}

theorem not_lastWritten_nil : ¬LastWritten dimension [] r := by
  rintro ⟨before, after, same, -⟩
  simp at same

theorem lastWritten_append : LastWritten dimension (ops ++ [op]) r ↔
    op = upsert r ∧ r.vector.validate dimension = .ok () ∨
      LastWritten dimension ops r ∧ ¬op.Touches dimension r.id := by
  constructor
  · rintro ⟨before, after, same, valid, untouched⟩
    rcases List.eq_nil_or_concat after with rfl | ⟨init, last, rfl⟩
    · exact .inl ⟨(List.append_inj' same rfl).2 |> List.singleton_inj.mp, valid⟩
    · rw [List.concat_eq_append, ← List.cons_append, ← List.append_assoc] at same
      obtain ⟨rfl, lasts⟩ := List.append_inj' same rfl
      rw [List.singleton_inj.mp lasts]
      refine .inr ⟨⟨before, init, rfl, valid, fun op inside => untouched op ?_⟩, untouched last ?_⟩
      · simp [inside]
      · simp
  · rintro (⟨rfl, valid⟩ | ⟨⟨before, after, rfl, valid, untouched⟩, last⟩)
    · exact ⟨ops, [], rfl, valid, by simp⟩
    · refine ⟨before, after ++ [op], by simp, valid, fun other inside => ?_⟩
      rcases List.mem_append.mp inside with early | late
      · exact untouched other early
      · exact List.mem_singleton.mp late ▸ last

theorem get?_records (before : Keyed SymbolId Record) (id : SymbolId) :
    Keyed.get? (op.records dimension before) id = some r ↔
      (op = upsert r ∧ r.vector.validate dimension = .ok ()) ∧ r.id = id ∨
        Keyed.get? before id = some r ∧ ¬op.Touches dimension id := by
  cases op with
  | upsert other =>
      simp only [records, Touches, upsert.injEq]
      cases valid : other.vector.validate dimension with
      | error cause =>
          have refused : ¬(other = r ∧ r.vector.validate dimension = .ok ()) := by
            rintro ⟨rfl, ok⟩
            rw [valid] at ok
            cases ok
          simp [refused]
      | ok _ =>
          simp only [Keyed.get?_put]
          by_cases same : id = other.id
          · subst same
            simp only [if_true, Option.some.injEq, and_self, not_true_eq_false, and_false, or_false]
            constructor
            · rintro rfl
              exact ⟨⟨rfl, valid⟩, rfl⟩
            · exact fun h => h.1.1
          · have different : ¬((other = r ∧ r.vector.validate dimension = .ok ()) ∧ r.id = id) := by
              rintro ⟨⟨rfl, -⟩, rfl⟩
              exact same rfl
            simp [same, different, Ne.symm same]
  | delete other =>
      simp only [records, Touches, Keyed.get?_erase]
      by_cases same : id = other
      · simp [same]
      · simp [same, Ne.symm same]
  | rebuild => simp [records, Touches]

/-- Under an id stands what was written last. -/
theorem get?_foldl_records (dimension : Nat) (ops : List StoreOp) (id : SymbolId) (r : Record) :
    Keyed.get? (ops.foldl (fun before op => op.records dimension before) []) id = some r ↔
      LastWritten dimension ops r ∧ r.id = id := by
  induction ops using List.reverseRecOn with
  | nil => simp [Keyed.get?, not_lastWritten_nil]
  | append_singleton ops op ih =>
      rw [List.foldl_append, List.foldl_cons, List.foldl_nil, get?_records, ih, lastWritten_append,
        or_and_right]
      refine or_congr_right ?_
      constructor
      · rintro ⟨⟨written, rfl⟩, untouched⟩
        exact ⟨⟨written, untouched⟩, rfl⟩
      · rintro ⟨⟨written, untouched⟩, rfl⟩
        exact ⟨⟨written, rfl⟩, untouched⟩

end

end StoreOp

/-! ## The two stores -/

namespace ExactStore

/-- A store after an operation. A refused write leaves it as it is, and there is nothing to build
    anew. -/
def apply (s : ExactStore) : StoreOp → ExactStore
  | .upsert r =>
    match s.upsert r with
    | .ok after => after
    | .error _ => s
  | .delete id => (s.delete id).2
  | .rebuild => s

def applyAll (s : ExactStore) (ops : List StoreOp) : ExactStore :=
  ops.foldl apply s

theorem apply_eq (s : ExactStore) (op : StoreOp) :
    s.apply op = { s with records := op.records s.dimension s.records } := by
  cases op with
  | upsert r =>
      cases valid : r.vector.validate s.dimension with
      | ok _ => simp only [apply, upsert_ok valid, StoreOp.records, valid]
      | error cause => simp only [apply, upsert_error valid, StoreOp.records, valid]
  | delete | rebuild => rfl

theorem applyAll_records (s : ExactStore) (ops : List StoreOp) : (s.applyAll ops).records =
    ops.foldl (fun before op => op.records s.dimension before) s.records := by
  induction ops generalizing s with
  | nil => rfl
  | cons op rest ih =>
      have rest := ih (s.apply op)
      rw [s.apply_eq op] at rest
      rwa [applyAll, List.foldl_cons, s.apply_eq op]

end ExactStore

/-- A valid ratio is a number above zero. -/
theorem GraphParams.positive_of_validate {p : GraphParams} (valid : p.validate = .ok ()) :
    0 < p.rebuildRatio := by
  by_contra negative
  have refused : (!decide (p.rebuildRatio > 0)) = true := by simpa using negative
  simp only [validate, refused, if_true] at valid
  split_ifs at valid

namespace GraphStore

/-- A store after an operation. A refused write leaves it as it is. -/
def apply (s : GraphStore) : StoreOp → GraphStore
  | .upsert r =>
    match s.upsert r with
    | .ok after => after
    | .error _ => s
  | .delete id => (s.delete id).2
  | .rebuild => s.rebuild

def applyAll (s : GraphStore) (ops : List StoreOp) : GraphStore :=
  ops.foldl apply s

/-- A write is done in full, or it is refused and changes nothing. -/
theorem apply_upsert (s : GraphStore) (r : Record) :
    s.apply (.upsert r) = (s.linked r).tidy ∧ r.vector.validate s.dimension = .ok () ∨
      s.apply (.upsert r) = s ∧ ∃ cause, r.vector.validate s.dimension = .error cause := by
  cases valid : r.vector.validate s.dimension with
  | ok _ => exact .inl ⟨by simp only [apply, upsert_ok valid], rfl⟩
  | error cause => exact .inr ⟨by simp only [apply, upsert_error valid], cause, rfl⟩

theorem apply_holding (s : GraphStore) (op : StoreOp) :
    s.Holding (op.records s.dimension s.records) (s.apply op) := by
  cases op with
  | upsert r =>
      rcases s.apply_upsert r with ⟨same, valid⟩ | ⟨same, cause, invalid⟩
      · simp only [same, StoreOp.records, valid]
        exact (s.linked_holding r).tidy
      · simp only [same, StoreOp.records, invalid]
        exact ⟨rfl, rfl, rfl⟩
  | delete id => exact s.delete_holding id
  | rebuild => exact s.rebuild_holding

theorem applyAll_holding (s : GraphStore) (ops : List StoreOp) :
    s.Holding (ops.foldl (fun before op => op.records s.dimension before) s.records)
      (s.applyAll ops) := by
  induction ops generalizing s with
  | nil => exact ⟨rfl, rfl, rfl⟩
  | cons op rest ih =>
      have first := s.apply_holding op
      have others := ih (s.apply op)
      rw [first.dimension, first.records] at others
      exact ⟨others.records, others.dimension.trans first.dimension,
        others.params.trans first.params⟩

theorem Sound.apply {s : GraphStore} (h : s.Sound) (op : StoreOp) : (s.apply op).Sound := by
  cases op with
  | upsert r =>
      rcases s.apply_upsert r with ⟨same, -⟩ | ⟨same, -⟩
      · exact same ▸ (h.linked r).tidy
      · rwa [same]
  | delete id => exact h.delete id
  | rebuild => exact h.rebuild

theorem Sound.applyAll {s : GraphStore} (h : s.Sound) (ops : List StoreOp) :
    (s.applyAll ops).Sound := by
  induction ops generalizing s with
  | nil => exact h
  | cons op rest ih => exact ih (h.apply op)

/-! ## Tombstones -/

/-- There are not too many tombstones, and there is room for one more vector unless all are live. -/
structure Tidy (s : GraphStore) : Prop where
  sparse : ¬s.params.rebuildRatio <
    Float32.ofNat s.tombstones / Float32.ofNat (max s.size 1)
  room : s.nextNumber < s.params.maxElements ∨ s.tombstones = 0

theorem Tidy.of_no_tombstones {s : GraphStore} (positive : 0 < s.params.rebuildRatio)
    (none : s.deleted = []) : s.Tidy := by
  have zero : s.tombstones = 0 := congrArg List.length none
  exact ⟨zero ▸ Score.not_lt_zero_div positive _, .inr zero⟩

theorem tidy_tidy {s : GraphStore} (positive : 0 < s.params.rebuildRatio) : s.tidy.Tidy := by
  unfold GraphStore.tidy
  cases need : s.needsRebuild with
  | true =>
      exact .of_no_tombstones (s.rebuild_holding.params ▸ positive) s.rebuild_deleted
  | false =>
      simp only [needsRebuild, Bool.or_eq_false_iff, decide_eq_false_iff_not, Nat.not_le] at need
      exact ⟨need.1, .inl need.2⟩

theorem dropped_absent {s : GraphStore} (h : s.Sound) {id : SymbolId}
    (absent : Keyed.has s.records id = false) : s.dropped id = s := by
  have unheld : s.get? id = none := by
    cases held : s.get? id with
    | none => rfl
    | some r =>
        rw [Keyed.has_iff.mpr ⟨r, held⟩] at absent
        cases absent
  have unnumbered : Keyed.get? s.numberOf id = none := by
    cases known : Keyed.get? s.numberOf id with
    | none => rfl
    | some number =>
        obtain ⟨v, r, held, -⟩ := (h.coherent.live id).mp ⟨number, known⟩
        rw [unheld] at held
        cases held
  have records : Keyed.erase s.records id = s.records := Keyed.erase_of_absent unheld
  rw [dropped, records, bury, unnumbered]

theorem Tidy.apply {s : GraphStore} (h : s.Tidy) (sound : s.Sound)
    (positive : 0 < s.params.rebuildRatio) (op : StoreOp) : (s.apply op).Tidy := by
  cases op with
  | upsert r =>
      rcases s.apply_upsert r with ⟨same, -⟩ | ⟨same, -⟩
      · exact same ▸ tidy_tidy ((s.linked_holding r).params.symm ▸ positive)
      · rwa [same]
  | delete id =>
      change (s.delete id).2.Tidy
      rw [delete_eq]
      cases held : Keyed.has s.records id with
      | true => exact tidy_tidy ((s.dropped_holding id).params.symm ▸ positive)
      | false =>
          change (s.dropped id).Tidy
          rwa [dropped_absent sound held]
  | rebuild => exact .of_no_tombstones (s.rebuild_holding.params ▸ positive) s.rebuild_deleted

theorem Tidy.applyAll {s : GraphStore} (h : s.Tidy) (sound : s.Sound)
    (positive : 0 < s.params.rebuildRatio) (ops : List StoreOp) : (s.applyAll ops).Tidy := by
  induction ops generalizing s with
  | nil => exact h
  | cons op rest ih =>
      exact ih (h.apply sound positive op) (sound.apply op) ((s.apply_holding op).params ▸ positive)

/-! ## Both stores side by side -/

theorem applyAll_same_records (dimension : Nat) (params : GraphParams) (ops : List StoreOp) :
    ((ofParams dimension params).applyAll ops).records =
      (({ dimension } : ExactStore).applyAll ops).records :=
  ((ofParams dimension params).applyAll_holding ops).records.trans
    (ExactStore.applyAll_records { dimension } ops).symm

/-- A store with a graph after a run, beside one that looks at every record. -/
structure Faithful (params : GraphParams) (dimension : Nat) (ops : List StoreOp) (g : GraphStore)
    (e : ExactStore) : Prop where
  sound : g.Sound
  held : ∀ id r, g.get? id = some r ↔ StoreOp.LastWritten dimension ops r ∧ r.id = id
  same : ∀ id, g.get? id = e.get? id
  told : ∀ id, (g.delete id).1 = (e.delete id).1
  size : g.size = e.size
  sparse : ¬params.rebuildRatio < Float32.ofNat g.tombstones / Float32.ofNat (max g.size 1)
  room : g.nextNumber < params.maxElements ∨ g.tombstones = 0

/-- Whatever is done to both stores, the one with a graph is faithful. -/
theorem applyAll_faithful {params : GraphParams} (valid : params.validate = .ok ())
    (dimension : Nat) (ops : List StoreOp) : Faithful params dimension ops
      ((ofParams dimension params).applyAll ops) (({ dimension } : ExactStore).applyAll ops) := by
  have inUse : (ofParams dimension params).params = params := by
    simp only [ofParams, GraphParams.orDefault, valid]
  have positive : 0 < params.rebuildRatio := GraphParams.positive_of_validate valid
  have empty : (ofParams dimension params).Sound := .ofParams dimension params
  have tidy : ((ofParams dimension params).applyAll ops).Tidy :=
    (Tidy.of_no_tombstones (inUse.symm ▸ positive) rfl).applyAll empty (inUse.symm ▸ positive) ops
  have kept : ((ofParams dimension params).applyAll ops).params = params :=
    (applyAll_holding _ ops).params.trans inUse
  have records := applyAll_same_records dimension params ops
  constructor
  case sound => exact empty.applyAll ops
  case held =>
    intro id r
    rw [get?, (applyAll_holding _ ops).records]
    exact StoreOp.get?_foldl_records dimension ops id r
  case same => exact fun id => congrArg (Keyed.get? · id) records
  case told => exact fun id => congrArg (Keyed.has · id) records
  case size => exact congrArg List.length records
  case sparse =>
    have sparse := tidy.sparse
    rwa [kept] at sparse
  case room =>
    have room := tidy.room
    rwa [kept] at room

/-- Thirteen tombstones beside eleven records are just not too many. -/
def snug : GraphParams where
  rebuildRatio := Float32.ofNat 13 / Float32.ofNat 11

/-- Eleven records are written, and one of them thirteen times more. -/
def snugRun : List StoreOp :=
  (["a", "b", "c", "d", "e", "f", "g", "h", "i", "j", "k"] ++ List.replicate 13 "a").map fun id =>
    .upsert ⟨id, [1], default⟩

theorem snugRun_faithful : snug.validate = .ok () ∧ Faithful snug 1 snugRun
    ((ofParams 1 snug).applyAll snugRun) (({ dimension := 1 } : ExactStore).applyAll snugRun) :=
  have valid : snug.validate = .ok () := by decide +kernel
  ⟨valid, applyAll_faithful valid 1 snugRun⟩

/-- The quotient is rounded down to the ratio, which is less than it. -/
theorem snugRun_crowded : snug.validate = .ok () ∧
    ((ofParams 1 snug).applyAll snugRun).tombstones = 13 ∧
    ((ofParams 1 snug).applyAll snugRun).size = 11 ∧
    ¬Float32.ofNat ((ofParams 1 snug).applyAll snugRun).tombstones ≤
      snug.rebuildRatio * Float32.ofNat (max ((ofParams 1 snug).applyAll snugRun).size 1) := by
  decide +kernel

end GraphStore

end CodeSearch
