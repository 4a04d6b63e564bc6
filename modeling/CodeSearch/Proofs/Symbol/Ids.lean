import CodeSearch.Proofs.Symbol.Forest
import CodeSearch.Proofs.Symbol.Renaming
import Mathlib.Algebra.Group.Nat.Defs
import Mathlib.Data.Set.Function

/-! # What an id tells

What is hashed for an id are the path, the name of the kind and the qualified name, each with a zero
behind it, and eight bytes of the ordinal. It is read from both ends. A path and the name of a kind
have no zero in them, so the first two zeros are the ends of these; the last eight bytes are the
ordinal, and what is left before them and their zero is the qualified name, whatever zeros it has.
Hence the bytes tell the seed, and the id does as far as the hash tells the bytes apart.
-/

namespace CodeSearch

/-! ## Bytes of texts -/

namespace Digest

theorem toList_loop (bytes : ByteArray) (i : Nat) (before : List UInt8) :
    ByteArray.toList.loop bytes i before = before.reverse ++ bytes.data.toList.drop i := by
  fun_induction ByteArray.toList.loop bytes i before with
  | case1 i before inside ih =>
      have here : bytes.get! i = bytes.data.toList[i] := getElem!_pos bytes.data i inside
      rw [ih, List.drop_eq_getElem_cons inside, here, List.reverse_cons, List.append_assoc]
      rfl
  | case2 i before outside =>
      rw [List.drop_eq_nil_of_le (Nat.le_of_not_lt outside), List.append_nil]

theorem utf8_eq (s : String) : utf8 s = s.toByteArray.data.toList :=
  toList_loop s.toByteArray 0 []

theorem utf8_injective {s t : String} (same : utf8 s = utf8 t) : s = t := by
  rw [utf8_eq, utf8_eq, Array.toList_inj, ← ByteArray.ext_iff] at same
  exact String.toByteArray_inj.mp same

end Digest

open Digest

/-- A list that ends at the first mark is told by what the mark stands in. -/
theorem append_mark_inj {α : Type} {mark : α} {a b rest rest' : List α} (ha : mark ∉ a)
    (hb : mark ∉ b) (same : a ++ mark :: rest = b ++ mark :: rest') : a = b ∧ rest = rest' := by
  induction a generalizing b with
  | nil =>
      cases b with
      | nil => exact ⟨rfl, (List.cons.inj same).2⟩
      | cons y b => exact absurd ((List.cons.inj same).1 ▸ List.mem_cons_self) hb
  | cons x a ih =>
      cases b with
      | nil => exact absurd ((List.cons.inj same).1 ▸ List.mem_cons_self) ha
      | cons y b =>
          obtain ⟨first, others⟩ := List.cons.inj same
          obtain ⟨parts, rests⟩ := ih (List.not_mem_of_not_mem_cons ha)
            (List.not_mem_of_not_mem_cons hb) others
          exact ⟨first ▸ parts ▸ rfl, rests⟩

theorem SymbolKind.zero_notMem_name (k : SymbolKind) : 0 ∉ utf8 k.name := by
  cases k <;> decide +kernel

theorem SymbolKind.name_injective {k l : SymbolKind} (same : k.name = l.name) : k = l := by
  revert same
  cases k <;> cases l <;> decide

/-! ## Bytes of ordinals -/

namespace SymbolId

/-- Eight bytes of an ordinal, the lowest first. -/
def ordinalBytes (ordinal : Nat) : List UInt8 :=
  (List.range 8).map fun i => (ordinal / Nat.pow 256 i).toUInt8

/-- Numbers with the same lowest bytes differ by what these bytes do not count. -/
theorem mod_eq_of_bytes {m n count : Nat}
    (same : ∀ i < count, m / 256 ^ i % 256 = n / 256 ^ i % 256) :
    m % 256 ^ count = n % 256 ^ count := by
  induction count with
  | zero => rw [Nat.pow_zero, Nat.mod_one, Nat.mod_one]
  | succ count ih =>
      rw [Nat.mod_pow_succ, Nat.mod_pow_succ, same count (Nat.lt_succ_self count),
        ih fun i less => same i (Nat.lt_succ_of_lt less)]

theorem ordinalBytes_injective {m n : Nat} (hm : m < 2 ^ 64) (hn : n < 2 ^ 64)
    (same : ordinalBytes m = ordinalBytes n) : m = n := by
  have digits : ∀ i < 8, m / 256 ^ i % 256 = n / 256 ^ i % 256 := by
    intro i less
    have digit := List.map_inj_left.mp same i (List.mem_range.mpr less)
    simpa using congrArg UInt8.toNat digit
  have rests : m % 2 ^ 64 = n % 2 ^ 64 := mod_eq_of_bytes digits
  rwa [Nat.mod_eq_of_lt hm, Nat.mod_eq_of_lt hn] at rests

theorem keyBytes_eq (path : String) (kind : SymbolKind) (qualifiedName : String) (ordinal : Nat) :
    keyBytes path kind qualifiedName ordinal =
      utf8 path ++ 0 :: (utf8 kind.name ++ 0 :: (utf8 qualifiedName ++ 0 :: ordinalBytes ordinal)) := by
  simp only [keyBytes, ordinalBytes, List.append_assoc, List.cons_append]

/-- The hash of some bytes, as long as an id is. -/
def ofBytes (bytes : List UInt8) : SymbolId :=
  Text.takeChars 32 (Blake3.hexHash bytes)

end SymbolId

/-! ## Seeds and their bytes -/

namespace Seed

/-- What is hashed for an id. -/
def bytes (s : Seed) : List UInt8 :=
  SymbolId.keyBytes s.path s.kind s.qualifiedName s.ordinal

/-- The path has no zero in it, and the ordinal fits its eight bytes. -/
structure Encodable (s : Seed) : Prop where
  path : 0 ∉ utf8 s.path
  ordinal : s.ordinal < 2 ^ 64

theorem id_eq (s : Seed) : s.id = SymbolId.ofBytes s.bytes :=
  rfl

section

variable {a b : Seed} (ha : a.Encodable) (hb : b.Encodable)

include ha hb

theorem bytes_injective (same : a.bytes = b.bytes) : a = b := by
  simp only [bytes, SymbolId.keyBytes_eq] at same
  -- from the left, up to the zero behind the kind
  obtain ⟨paths, rest⟩ := append_mark_inj ha.path hb.path same
  obtain ⟨kinds, rest⟩ := append_mark_inj a.kind.zero_notMem_name b.kind.zero_notMem_name rest
  -- from the right, as the qualified name can have zeros
  obtain ⟨names, last⟩ := List.append_inj' rest rfl
  have ordinals := SymbolId.ordinalBytes_injective ha.ordinal hb.ordinal (List.cons.inj last).2
  cases a
  cases b
  rw [Seed.mk.injEq]
  exact ⟨utf8_injective paths, SymbolKind.name_injective (utf8_injective kinds),
    utf8_injective names, ordinals⟩

theorem eq_of_id {texts : Set (List UInt8)} (apart : Set.InjOn SymbolId.ofBytes texts)
    (known : a.bytes ∈ texts) (known' : b.bytes ∈ texts) (same : a.id = b.id) : a = b := by
  rw [id_eq, id_eq] at same
  exact bytes_injective ha hb (apart known known' same)

end

/-- The zero in a path can be read as its end. -/
example : bytes ⟨"a\x00call", .type, "x", 0⟩ = bytes ⟨"a", .call, "class\x00x", 0⟩ := by
  decide +kernel

end Seed

/-! ## Ids of extractions and comparisons -/

open Extract SymbolDiff Syntax

/-- The ids of an extraction are those of its seeds. -/
theorem Syntax.Parsed.ids_eq (p : Parsed) (unit : SourceUnit) (snippetChars : Nat) :
    (p.symbols unit snippetChars).map (·.id) = (p.seeds unit snippetChars).map Seed.id := by
  have walked := p.symbols_walked unit snippetChars
  refine List.ext_getElem (by simp [Parsed.seeds]) fun n inside _ => ?_
  rw [List.length_map] at inside
  simp only [Parsed.seeds, List.getElem_map, List.getElem_zipIdx, Nat.zero_add]
  exact (walked n inside).id

namespace SymbolDiff

/-- What the ids that are tried for a new symbol are derived from. -/
def spareSeed (s : Symbol) (k : Nat) : Seed :=
  ⟨s.unit.path, s.kind, s.qualifiedName, 1000 + k⟩

theorem freshId_seed {inUse : List SymbolId} {s : Symbol} (other : freshId inUse s ≠ s.id) :
    ∃ k < inUse.length + 2, freshId inUse s = (spareSeed s k).id :=
  (freshId_cases inUse s).resolve_left other

end SymbolDiff

/-- What ids tell, as far as the hash tells some texts apart. -/
structure Telling (texts : Set (List UInt8)) : Prop where
  /-- What is hashed tells the path, the kind, the qualified name and the ordinal. -/
  bytes : ∀ a b : Seed, a.Encodable → b.Encodable → (a.bytes = b.bytes ↔ a = b)
  ids : ∀ a b : Seed, a.Encodable → b.Encodable → a.bytes ∈ texts → b.bytes ∈ texts →
    (a.id = b.id ↔ a = b)
  /-- The ids of an extraction are derived with the numbers of earlier namesakes. -/
  extracted : ∀ (p : Parsed) (unit : SourceUnit) (snippetChars : Nat),
    (p.symbols unit snippetChars).map (·.id) = (p.seeds unit snippetChars).map Seed.id
  /-- A new symbol that does not keep its id gets one derived with an ordinal from 1000 on. Where it
      is the id of an extracted symbol, that one has as many earlier namesakes. -/
  fresh : ∀ (inUse : List SymbolId) (s : Symbol), freshId inUse s ≠ s.id →
    ∃ k < inUse.length + 2, freshId inUse s = (spareSeed s k).id ∧
      ∀ (p : Parsed) (unit : SourceUnit) (snippetChars : Nat),
        ∀ own ∈ p.seeds unit snippetChars, own.Encodable → (spareSeed s k).Encodable →
          own.bytes ∈ texts → (spareSeed s k).bytes ∈ texts →
            (freshId inUse s = own.id ↔ own.path = s.unit.path ∧ own.kind = s.kind ∧
              own.qualifiedName = s.qualifiedName ∧ own.ordinal = 1000 + k)

/-- What is hashed for an id tells all that it is derived from. So where the hash has no collisions,
    different files, kinds, names or ordinals never have one id, be it that of an extracted symbol
    or one that a comparison found for a new symbol. -/
theorem ids_telling (texts : Set (List UInt8)) (apart : Set.InjOn SymbolId.ofBytes texts) :
    Telling texts := by
  have ids {a b : Seed} (ha : a.Encodable) (hb : b.Encodable) (known : a.bytes ∈ texts)
      (known' : b.bytes ∈ texts) : a.id = b.id ↔ a = b :=
    ⟨Seed.eq_of_id ha hb apart known known', congrArg Seed.id⟩
  constructor
  case bytes => exact fun a b ha hb => ⟨Seed.bytes_injective ha hb, congrArg Seed.bytes⟩
  case ids => exact fun a b => ids
  case extracted => exact Parsed.ids_eq
  case fresh =>
    intro inUse s other
    obtain ⟨k, few, derived⟩ := freshId_seed other
    refine ⟨k, few, derived, fun p unit snippetChars own _ ho hs known known' => ?_⟩
    rw [derived, eq_comm, ids ho hs known known']
    exact Seed.mk.injEq .. ▸ Iff.rfl

/-- The seeds of a function and a type, and those that are tried when the id of the function is in
    use. -/
def earlySeeds : List Seed :=
  [⟨"a.rs", .function, "A::f", 0⟩, ⟨"a.rs", .type, "A", 0⟩, ⟨"a.rs", .function, "A::f", 1000⟩,
    ⟨"a.rs", .function, "A::f", 1001⟩, ⟨"a.rs", .function, "A::f", 1002⟩]

/-- The symbols of a Rust file with a method before its type. -/
def earlySymbols : List Symbol :=
  (Parsed.ofSource earlyMethod .rust "").symbols earlyUnit 2000

/-- A function whose id is in use gets an id that nothing in its file has. -/
theorem earlyMethod_telling :
    Set.InjOn SymbolId.ofBytes {bytes | bytes ∈ earlySeeds.map Seed.bytes} ∧
      ∀ s ∈ earlySymbols, s.name = "f" → freshId [s.id] s ∉ earlySymbols.map (·.id) := by
  have apart : Set.InjOn SymbolId.ofBytes {bytes | bytes ∈ earlySeeds.map Seed.bytes} := by
    have distinct : ((earlySeeds.map Seed.bytes).map SymbolId.ofBytes).Nodup := by
      rw [List.map_map]
      exact Seed.nodup_ids (by decide +kernel)
    exact fun a ha b hb same => List.inj_on_of_nodup_map distinct ha hb same
  have told := ids_telling _ apart
  have encodable : ∀ s ∈ earlySeeds, s.Encodable := by
    have each : ∀ s ∈ earlySeeds, 0 ∉ utf8 s.path ∧ s.ordinal < 2 ^ 64 := by decide +kernel
    exact fun s hs => ⟨(each s hs).1, (each s hs).2⟩
  have seeds : (Parsed.ofSource earlyMethod .rust "").seeds earlyUnit 2000 = earlySeeds.take 2 := by
    decide +kernel
  have method : ∀ s ∈ earlySymbols, s.name = "f" →
      s.unit.path = "a.rs" ∧ s.kind = .function ∧ s.qualifiedName = "A::f" := by decide +kernel
  have tried : ∀ k < 3, (⟨"a.rs", .function, "A::f", 1000 + k⟩ : Seed) ∈ earlySeeds := by decide
  have first : ∀ own ∈ earlySeeds.take 2, own.ordinal = 0 := by decide
  refine ⟨apart, fun s hs named used => ?_⟩
  obtain ⟨path, kind, name⟩ := method s hs named
  have spare {k : Nat} (few : k < 3) : spareSeed s k ∈ earlySeeds := by
    rw [spareSeed, path, kind, name]
    exact tried k few
  have spares : Spare 1 s := by
    intro j hj k hk same
    have inside := spare (k := j) (by omega)
    have inside' := spare (k := k) (by omega)
    have seed := (told.ids _ _ (encodable _ inside) (encodable _ inside')
      (List.mem_map_of_mem inside) (List.mem_map_of_mem inside')).mp same
    exact Nat.add_left_cancel (congrArg Seed.ordinal seed)
  have free : freshId [s.id] s ∉ [s.id] := freshId_free spares (Nat.le_refl 1)
  obtain ⟨k, few, -, extracted⟩ := told.fresh [s.id] s (List.ne_of_not_mem_cons free)
  have spare := spare few
  rw [earlySymbols, told.extracted, seeds] at used
  obtain ⟨own, hown, same⟩ := List.mem_map.mp used
  have inside := List.take_subset 2 earlySeeds hown
  obtain ⟨-, -, -, ordinal⟩ := (extracted _ earlyUnit 2000 own (seeds ▸ hown) (encodable own inside)
    (encodable _ spare) (List.mem_map_of_mem inside) (List.mem_map_of_mem spare)).mp same.symm
  rw [first own hown] at ordinal
  omega

end CodeSearch
