import CodeSearch.Proofs.Vector.Nearest

/-! # Zero vectors

A vector of zeros has no direction, and the two stores tell a search different things of it. The
exact store says that it is not similar to any vector, unless the length of the other vector is
beyond the finite numbers: then nothing times infinity is no number, and so is the similarity. The
graph measures the distance 0 there, and so its search says that the vectors are the same.
-/

namespace CodeSearch

open Float.Model (UnpackedFloat)

namespace Score

/-! ## Zeros and what is no number -/

theorem unpack_mul (x y : Score) : (x * y).toModel.unpack =
    (Float32.Model.pack (UnpackedFloat.mul .binary32 x.toModel.unpack y.toModel.unpack)).unpack :=
  rfl

theorem unpack_add (x y : Score) : (x + y).toModel.unpack =
    (Float32.Model.pack (UnpackedFloat.add .binary32 x.toModel.unpack y.toModel.unpack)).unpack :=
  rfl

theorem unpack_div (x y : Score) : (x / y).toModel.unpack =
    (Float32.Model.pack (UnpackedFloat.div .binary32 x.toModel.unpack y.toModel.unpack)).unpack :=
  rfl

theorem unpack_sqrt (x : Score) : x.sqrt.toModel.unpack =
    (Float32.Model.pack (UnpackedFloat.sqrt .binary32 x.toModel.unpack)).unpack :=
  rfl

theorem unpack_pack_zero (s : UnpackedFloat.Sign) :
    (Float32.Model.pack (.zero s)).unpack = .zero s := by
  cases s with
  | positive => rfl
  | negative => rfl

theorem unpack_pack_notANumber : (Float32.Model.pack .notANumber).unpack = .notANumber := by
  rfl

/-- One of the two zeros. -/
def IsZero (x : Score) : Prop :=
  ∃ s, x.toModel.unpack = .zero s

theorem isZero_iff {x : Score} : IsZero x ↔ (x == 0) = true := by
  have zero : (0 : Score).toModel.unpack = .zero .positive := by rfl
  have same : (x == 0) = (x.toModel.unpack.compare (0 : Score).toModel.unpack == some .eq) := rfl
  rw [same, zero, IsZero]
  cases x.toModel.unpack with
  | notANumber => exact ⟨nofun, nofun⟩
  | infinity s => cases s <;> exact ⟨nofun, nofun⟩
  | zero s => exact ⟨fun _ => rfl, fun _ => ⟨s, rfl⟩⟩
  | finite s m e positive => cases s <;> exact ⟨nofun, nofun⟩

theorem isFinite_eq (x : Score) : x.isFinite = x.toModel.unpack.isFinite :=
  rfl

theorem isNaN_iff {x : Score} : x.isNaN = true ↔ x.toModel.unpack = .notANumber := by
  have same : x.isNaN = x.toModel.unpack.isNaN := rfl
  rw [same]
  cases x.toModel.unpack with
  | notANumber => exact ⟨fun _ => rfl, fun _ => rfl⟩
  | infinity | zero | finite => exact ⟨nofun, nofun⟩

section

variable {x y : Score}

theorem IsZero.isFinite (zero : IsZero x) : x.isFinite = true := by
  obtain ⟨s, unpacked⟩ := zero
  rw [isFinite_eq, unpacked]
  rfl

theorem IsZero.not_pos (zero : IsZero x) : ¬0 < x := by
  intro positive
  obtain ⟨s, unpacked⟩ := zero
  obtain ⟨p, q, hp, hq, less⟩ := number_lt_iff.mp positive
  rw [placed, unpacked] at hq
  cases hq
  rw [placed_zero] at hp
  cases hp
  cases less

theorem IsZero.add (hx : IsZero x) (hy : IsZero y) : IsZero (x + y) := by
  obtain ⟨s, unpackedX⟩ := hx
  obtain ⟨t, unpackedY⟩ := hy
  rw [IsZero, unpack_add, unpackedX, unpackedY]
  cases s with
  | positive => cases t <;> exact ⟨_, unpack_pack_zero _⟩
  | negative => cases t <;> exact ⟨_, unpack_pack_zero _⟩

theorem IsZero.sqrt (hx : IsZero x) : IsZero x.sqrt := by
  obtain ⟨s, unpacked⟩ := hx
  rw [IsZero, unpack_sqrt, unpacked]
  exact ⟨s, unpack_pack_zero s⟩

/-- Nothing times something finite is nothing. -/
theorem isZero_mul (zero : IsZero x ∨ IsZero y) (finite : x.isFinite = true ∧ y.isFinite = true) :
    IsZero (x * y) := by
  rw [isFinite_eq, isFinite_eq] at finite
  rw [IsZero, unpack_mul]
  rcases zero with ⟨s, unpacked⟩ | ⟨s, unpacked⟩
  · rw [unpacked]
    cases other : y.toModel.unpack with
    | notANumber | infinity =>
        rw [other] at finite
        cases finite.2
    | zero | finite => exact ⟨_, unpack_pack_zero _⟩
  · rw [unpacked]
    cases other : x.toModel.unpack with
    | notANumber | infinity =>
        rw [other] at finite
        cases finite.1
    | zero | finite => exact ⟨_, unpack_pack_zero _⟩

/-- Nothing times anything else is no number. -/
theorem isNaN_mul (zero : IsZero x ∨ IsZero y) (other : ¬(x.isFinite = true ∧ y.isFinite = true)) :
    (x * y).isNaN = true := by
  rw [isNaN_iff, unpack_mul]
  rcases zero with zero | zero
  · have infinite : y.isFinite ≠ true := fun finite => other ⟨zero.isFinite, finite⟩
    obtain ⟨s, unpacked⟩ := zero
    rw [isFinite_eq] at infinite
    rw [unpacked]
    cases unpackedY : y.toModel.unpack with
    | notANumber | infinity => exact unpack_pack_notANumber
    | zero | finite =>
        rw [unpackedY] at infinite
        exact absurd rfl infinite
  · have infinite : x.isFinite ≠ true := fun finite => other ⟨finite, zero.isFinite⟩
    obtain ⟨s, unpacked⟩ := zero
    rw [isFinite_eq] at infinite
    rw [unpacked]
    cases unpackedX : x.toModel.unpack with
    | notANumber | infinity => exact unpack_pack_notANumber
    | zero | finite =>
        rw [unpackedX] at infinite
        exact absurd rfl infinite

theorem not_isZero_of_isNaN (none : x.isNaN = true) : ¬IsZero x := by
  rintro ⟨s, unpacked⟩
  rw [isNaN_iff.mp none] at unpacked
  cases unpacked

theorem isNaN_div (x : Score) (none : y.isNaN = true) : (x / y).isNaN = true := by
  rw [isNaN_iff, unpack_div, isNaN_iff.mp none]
  cases x.toModel.unpack with
  | notANumber | infinity | zero | finite => exact unpack_pack_notANumber

end

end Score

namespace Vector

/-! ## Vectors of zeros -/

def IsZero (v : Vector) : Prop :=
  ∀ x ∈ v, (x == 0) = true

theorem length_of_validate {v : Vector} {dimension : Nat} (valid : v.validate dimension = .ok ()) :
    v.length = dimension := by
  by_contra other
  rw [validate, if_pos other] at valid
  cases valid

/-- The length of a vector. -/
def norm (v : Vector) : Score :=
  (v.dot v).sqrt

theorem IsZero.dot_self {v : Vector} (zero : v.IsZero) : Score.IsZero (v.dot v) := by
  refine List.foldlRecOn (motive := Score.IsZero) _ _ ⟨.positive, rfl⟩ fun sum before pair inside => ?_
  have factor : Score.IsZero pair.1 := Score.isZero_iff.mpr (zero _ (List.of_mem_zip inside).1)
  have other : Score.IsZero pair.2 := Score.isZero_iff.mpr (zero _ (List.of_mem_zip inside).2)
  exact before.add (Score.isZero_mul (.inl factor) ⟨factor.isFinite, other.isFinite⟩)

theorem IsZero.norm {v : Vector} (zero : v.IsZero) : Score.IsZero v.norm :=
  zero.dot_self.sqrt

/-- A vector of zeros has the distance 0 from every vector. -/
theorem cosineDistance_zero {query stored : Vector} (zero : query.IsZero ∨ stored.IsZero) :
    query.cosineDistance stored = 0 := by
  unfold cosineDistance
  refine if_neg fun positive => ?_
  rw [Bool.and_eq_true, decide_eq_true_iff, decide_eq_true_iff] at positive
  rcases zero with zero | zero
  · exact zero.dot_self.not_pos positive.1
  · exact zero.dot_self.not_pos positive.2

/-- The cosine with a vector of zeros is 0, or no number where a length is not finite. -/
theorem cosine_zero {a b : Vector} (same : a.length = b.length) (zero : a.IsZero ∨ b.IsZero) :
    if a.norm.isFinite && b.norm.isFinite then a.cosine b = 0 else (a.cosine b).isNaN = true := by
  have norms : Score.IsZero a.norm ∨ Score.IsZero b.norm := zero.imp IsZero.norm IsZero.norm
  unfold cosine
  split
  · rename_i finite
    have product : (a.norm * b.norm == 0) = true :=
      Score.isZero_iff.mp (Score.isZero_mul norms (Bool.and_eq_true_iff.mp finite))
    split
    · rfl
    · exact if_pos product
  · rename_i infinite
    have product : (a.norm * b.norm).isNaN = true :=
      Score.isNaN_mul norms fun finite => infinite (Bool.and_eq_true_iff.mpr finite)
    have filled : a ≠ [] := by
      rintro rfl
      obtain rfl := List.length_eq_zero_iff.mp same.symm
      exact infinite rfl
    rw [if_neg (by simpa [same] using filled)]
    have nonzero : ¬(a.norm * b.norm == 0) = true := fun zero =>
      Score.not_isZero_of_isNaN product (Score.isZero_iff.mpr zero)
    exact (congrArg Float32.isNaN (if_neg nonzero)).trans (Score.isNaN_div _ product)

end Vector

/-! ## What the searches tell -/

/-- A restriction leaves candidates out, and changes none. -/
theorem GraphStore.candidate?_unrestricted {s : GraphStore} {r : Restriction} {number : Nat}
    {distance : Score} {c : Candidate} (known : s.candidate? r number distance = some c) :
    s.candidate? none number distance = some c := by
  unfold GraphStore.candidate? at known ⊢
  split at known
  · cases known
  · rename_i live
    rw [if_neg live]
    obtain ⟨-, -, known⟩ := Option.bind_eq_some_iff.mp known
    obtain ⟨id, numbered, known⟩ := Option.bind_eq_some_iff.mp known
    obtain ⟨record, held, known⟩ := Option.bind_eq_some_iff.mp known
    split at known
    · simpa [numbered, held, Restriction.admits] using known
    · cases known

/-- A search in the graph tells of each record how far its vector is from the query. -/
theorem GraphStore.Sound.search_restricted {s : GraphStore} (h : s.Sound) {query : Vector} {k : Nat}
    {r : Restriction} {found : List Candidate} (searched : s.search query k r = .ok found)
    {c : Candidate} (inside : c ∈ found) : ∃ record, s.get? c.id = some record ∧ record.id = c.id ∧
      c.similarity = 1 - query.cosineDistance record.vector := by
  unfold GraphStore.search at searched
  cases valid : query.validate s.dimension with
  | error cause => simp [valid, bind, Except.bind] at searched
  | ok _ =>
      simp only [valid, bind, Except.bind, pure, Except.pure] at searched
      split at searched
      · cases searched
        cases inside
      · rw [← Except.ok.inj searched] at inside
        obtain ⟨entry, near, known⟩ :=
          List.mem_filterMap.mp (Candidate.best_subset _ _ inside)
        have ranked : entry ∈ s.ranked query := List.mem_of_mem_take near
        have unrestricted := candidate?_unrestricted known
        rcases h.ranked ranked with dead | ⟨record, held, distance, alive⟩
        · rw [candidate?_dead dead] at unrestricted
          cases unrestricted
        · rw [alive] at unrestricted
          cases unrestricted
          exact ⟨record, held, rfl, congrArg (1 - ·) distance⟩

theorem ExactStore.applyAll_dimension (s : ExactStore) (ops : List StoreOp) :
    (s.applyAll ops).dimension = s.dimension :=
  List.foldlRecOn (motive := fun t : ExactStore => t.dimension = s.dimension) ops _ rfl
    fun t same op _ => (congrArg ExactStore.dimension (t.apply_eq op)).trans same

/-- One record with a vector of zeros. -/
def zeroRun : List StoreOp :=
  [.upsert ⟨"a", [0, 0], default⟩]

theorem ExactStore.search_all (s : ExactStore) {query : Vector}
    (valid : query.validate s.dimension = .ok ()) (k : Nat) :
    s.search query k none = .ok (Candidate.best k ((Keyed.values s.records).map fun record =>
      ⟨record.id, query.cosine record.vector, record.metadata⟩)) := by
  have all : (Keyed.values s.records).filter
      (fun record => Restriction.admits none record.metadata) = Keyed.values s.records :=
    List.filter_eq_self.mpr fun _ _ => rfl
  simp only [ExactStore.search, valid, bind, Except.bind, pure, Except.pure, all]

theorem Candidate.best_single (c : Candidate) : Candidate.best 1 [c] = [c] := by
  rw [Candidate.best, List.mergeSort_singleton]
  rfl

end CodeSearch
