import CodeSearch.Proofs.EditDistance
import CodeSearch.Similarity

/-! # The structural hash

What is hashed of a shape are, node by node, the name of the kind and the four bytes of the depth,
with no mark between them. Two names go on from another one, and a depth can be any four bytes, so
that the first node can be read as either kind: the depth after the shorter name then holds letters
of the longer one. The next name settles which it was. After `parameter` it would have to be read
from its second letter on as a name of its own, and after `field` to begin with an `e`, which no
name can. Hence the bytes tell the skeleton, and the hash does as far as it tells the bytes apart.
-/

namespace CodeSearch

open Syntax Digest

/-- The hash tells these texts apart if they differ. -/
def Digest.Blake3.Apart (first second : List UInt8) : Prop :=
  hexHash first = hexHash second → first = second

namespace Digest.Blake3

theorem byte_toNat (w : UInt32) :
    w.toUInt8.toNat + 256 * (w >>> 8).toUInt8.toNat + 65536 * (w >>> 16).toUInt8.toNat +
      16777216 * (w >>> 24).toUInt8.toNat = w.toNat := by
  have := w.toNat_lt
  simp only [UInt32.toNat_toUInt8, UInt32.toNat_shiftRight, Nat.shiftRight_eq_div_pow]
  simp
  omega

theorem littleEndian_injective {v w : UInt32} (same : littleEndian v = littleEndian w) : v = w := by
  simp only [littleEndian, List.cons.injEq, and_true] at same
  obtain ⟨lowest, lower, higher, highest⟩ := same
  apply UInt32.toNat_inj.mp
  rw [← byte_toNat v, ← byte_toNat w, lowest, lower, higher, highest]

end Digest.Blake3

/-! ## Names of kinds -/

namespace Syntax.NodeKind

theorem mem_all (kind : NodeKind) : kind ∈ all := by
  cases kind <;> decide

def bytes (kind : NodeKind) : List UInt8 :=
  utf8 kind.name

/-- A name that another one begins with. -/
theorem eq_of_bytes_prefix {k l : NodeKind} (begins : k.bytes <+: l.bytes) :
    k = l ∨ (k = .parameter ∧ l = .parameters) ∨ (k = .field ∧ l = .fieldAccess) := by
  have all_pairs : ∀ k ∈ all, ∀ l ∈ all, k.bytes.isPrefixOf l.bytes = true →
      k = l ∨ (k = .parameter ∧ l = .parameters) ∨ (k = .field ∧ l = .fieldAccess) := by
    decide +kernel
  exact all_pairs k (mem_all k) l (mem_all l) (List.isPrefixOf_iff_prefix.mpr begins)

/-- No name goes on after its first letter as a name. -/
theorem tail_bytes_ne {k l : NodeKind} {rest rest' : List UInt8} :
    k.bytes.tail ++ rest ≠ l.bytes ++ rest' := by
  have all_pairs : ∀ k ∈ all, ∀ l ∈ all, k.bytes.tail.isPrefixOf l.bytes = false ∧
      l.bytes.isPrefixOf k.bytes.tail = false := by
    decide +kernel
  obtain ⟨inside, outside⟩ := all_pairs k (mem_all k) l (mem_all l)
  intro same
  rcases List.prefix_or_prefix_of_prefix (List.prefix_append _ rest)
    (same ▸ List.prefix_append l.bytes rest') with begins | begins
  · rw [List.isPrefixOf_iff_prefix.mpr begins] at inside
    cases inside
  · rw [List.isPrefixOf_iff_prefix.mpr begins] at outside
    cases outside

/-- A name has a first letter, which is no `e`. -/
theorem bytes_cons (k : NodeKind) : ∃ letter tail, k.bytes = letter :: tail ∧ letter ≠ 101 := by
  have each : ∀ k ∈ all, k.bytes.head?.any (· ≠ 101) = true := by decide +kernel
  have first := each k (mem_all k)
  cases name : k.bytes with
  | nil =>
      rw [name] at first
      cases first
  | cons letter tail =>
      rw [name] at first
      exact ⟨letter, tail, rfl, of_decide_eq_true first⟩

theorem bytes_parameters : bytes .parameters = bytes .parameter ++ [115] := by decide +kernel

theorem bytes_fieldAccess :
    bytes .fieldAccess = bytes .field ++ [95, 97, 99, 99, 101, 115, 115] := by decide +kernel

end Syntax.NodeKind

/-! ## The hashed bytes -/

namespace Shape

/-- What is hashed of a skeleton. -/
def hashed (skeleton : List (NodeKind × UInt32)) : List UInt8 :=
  skeleton.flatMap fun (kind, depth) => utf8 kind.name ++ Blake3.littleEndian depth

theorem structuralHash_eq (s : Shape) : s.structuralHash = Blake3.hexHash (hashed s.skeleton) :=
  rfl

section

variable {k l : NodeKind} {d e : UInt32} {xs ys : List (NodeKind × UInt32)}

theorem hashed_cons : hashed ((k, d) :: xs) = k.bytes ++ (Blake3.littleEndian d ++ hashed xs) := by
  rw [hashed, List.flatMap_cons, List.append_assoc]
  rfl

/-- One byte in front of what is hashed makes it none. -/
theorem hashed_ne_cons (byte : UInt8) : hashed xs ≠ byte :: hashed ys := by
  intro same
  cases xs with
  | nil => cases same
  | cons x xs =>
      obtain ⟨m, f⟩ := x
      obtain ⟨letter, tail, name, -⟩ := m.bytes_cons
      have shifted : m.bytes.tail ++ (Blake3.littleEndian f ++ hashed xs) = hashed ys := by
        rw [hashed_cons, name] at same
        rw [name]
        exact (List.cons.inj same).2
      cases ys with
      | nil => simp [Blake3.littleEndian, hashed] at shifted
      | cons y ys =>
          obtain ⟨n, g⟩ := y
          rw [hashed_cons] at shifted
          exact NodeKind.tail_bytes_ne shifted

theorem hashed_ne_e (rest : List UInt8) : hashed xs ≠ 101 :: rest := by
  intro same
  cases xs with
  | nil => cases same
  | cons x xs =>
      obtain ⟨m, f⟩ := x
      obtain ⟨letter, tail, name, other⟩ := m.bytes_cons
      rw [hashed_cons, name] at same
      exact other (List.cons.inj same).1

/-- The bytes begin with one kind only. -/
theorem kind_eq_of_hashed (begins : k.bytes <+: l.bytes)
    (same : hashed ((k, d) :: xs) = hashed ((l, e) :: ys)) : k = l := by
  rw [hashed_cons, hashed_cons] at same
  rcases NodeKind.eq_of_bytes_prefix begins with equal | ⟨rfl, rfl⟩ | ⟨rfl, rfl⟩
  · exact equal
  · rw [NodeKind.bytes_parameters, List.append_assoc, List.append_cancel_left_eq] at same
    simp only [Blake3.littleEndian, List.cons_append, List.nil_append, List.cons.injEq] at same
    exact absurd same.2.2.2.2 (hashed_ne_cons _)
  · rw [NodeKind.bytes_fieldAccess, List.append_assoc, List.append_cancel_left_eq] at same
    simp only [Blake3.littleEndian, List.cons_append, List.nil_append, List.cons.injEq] at same
    exact absurd same.2.2.2.2 (hashed_ne_e _)

end

/-- Different skeletons are hashed as different bytes. -/
theorem hashed_injective {xs ys : List (NodeKind × UInt32)} (same : hashed xs = hashed ys) :
    xs = ys := by
  induction xs generalizing ys with
  | nil =>
      cases ys with
      | nil => rfl
      | cons y ys => simp [hashed, Blake3.littleEndian] at same
  | cons x xs ih =>
      cases ys with
      | nil => simp [hashed, Blake3.littleEndian] at same
      | cons y ys =>
          obtain ⟨k, d⟩ := x
          obtain ⟨l, e⟩ := y
          have kinds : k = l := by
            have whole := same
            rw [hashed_cons, hashed_cons] at whole
            rcases List.prefix_or_prefix_of_prefix (List.prefix_append k.bytes _)
              (whole ▸ List.prefix_append l.bytes _) with begins | begins
            · exact kind_eq_of_hashed begins same
            · exact (kind_eq_of_hashed begins same.symm).symm
          subst kinds
          rw [hashed_cons, hashed_cons, List.append_cancel_left_eq] at same
          obtain ⟨depths, rests⟩ := List.append_inj same rfl
          rw [Blake3.littleEndian_injective depths, ih rests]

/-! ## The hash and the shortcut of the similarity -/

section

variable {a b : Shape}
  (apart : Blake3.Apart (hashed a.skeleton) (hashed b.skeleton))

include apart

theorem skeleton_eq_iff : a.structuralHash = b.structuralHash ↔ a.skeleton = b.skeleton := by
  constructor
  · exact fun same => hashed_injective (apart same)
  · intro same
    rw [structuralHash_eq, structuralHash_eq, same]

theorem editDistance_skeleton :
    a.structuralHash = b.structuralHash ↔ editDistance a.skeleton b.skeleton = 0 :=
  (skeleton_eq_iff apart).trans (editDistance_eq_zero _ _).symm

end

/-- Shapes that the hash tells apart have one hash just when they have one skeleton. So the
    shortcut of the similarity is taken when the skeletons are at no distance, and only then. -/
theorem structuralHash_eq_iff (a b : Shape)
    (apart : Blake3.Apart (hashed a.skeleton) (hashed b.skeleton)) :
    (a.structuralHash = b.structuralHash ↔ a.skeleton = b.skeleton) ∧
    (a.structuralHash = b.structuralHash ↔ editDistance a.skeleton b.skeleton = 0) ∧
    ∀ (F : Type) [Sub F] [Div F] [Scale F], Similarity.ofShapes a b =
      if editDistance a.skeleton b.skeleton = 0 then (Scale.ofNat 1 : F)
      else Similarity.ofLists a.skeleton b.skeleton := by
  have distance := editDistance_skeleton apart
  refine ⟨skeleton_eq_iff apart, distance, fun F _ _ _ => ?_⟩
  rw [Similarity.ofShapes]
  exact if_congr distance rfl rfl

/-- A parameter whose depth begins like an `s`. -/
def parameterShape : Shape :=
  ⟨[{ kind := .parameter, depth := 0x73 }, { kind := .call, depth := 0 }], false⟩

/-- Parameters whose depth ends like a `c`, hashed as `parameterShape` is up to the letter after. -/
def parametersShape : Shape :=
  ⟨[{ kind := .parameters, depth := 0x63000000 }, { kind := .assign, depth := 0 }], false⟩

theorem lookalikes_structuralHash :
    Blake3.Apart (hashed parameterShape.skeleton) (hashed parametersShape.skeleton) ∧
      parameterShape.structuralHash ≠ parametersShape.structuralHash ∧
      editDistance parameterShape.skeleton parametersShape.skeleton ≠ 0 ∧
      Similarity.ofShapes parameterShape parametersShape = (0 : Score) := by
  have apart : Blake3.Apart (hashed parameterShape.skeleton) (hashed parametersShape.skeleton) :=
    fun same => absurd same (by decide +kernel)
  obtain ⟨skeletons, distance, similarity⟩ :=
    structuralHash_eq_iff parameterShape parametersShape apart
  have differ : parameterShape.structuralHash ≠ parametersShape.structuralHash :=
    skeletons.not.mpr (by decide)
  have far := distance.not.mp differ
  refine ⟨apart, differ, far, ?_⟩
  rw [similarity Score, if_neg far]
  decide +kernel

end Shape

end CodeSearch
