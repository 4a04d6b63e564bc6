import CodeSearch.Symbol.Basic
import CodeSearch.Symbol.Extract
import Mathlib.Data.List.Nodup
import Mathlib.Tactic.Common

/-! # What an extraction consists of

Every extracted symbol has the id of its kind, its qualified name and the number of its namesakes
before it, belongs to the version that was read, and keeps text of one node of the tree. This is
what a walk adds; attaching members and resolving names afterwards changes only parents and
relations.
-/

/-! ## Seeds of symbol ids

Ids are hashes, so different ids for different symbols can only be had as long as no two seeds in
use collide. What is assumed about the hash is always stated for the finitely many seeds that a
pool of symbols can bring into use, and never for all seeds there are.
-/

namespace CodeSearch

namespace Digest.Blake3

theorem hexByte_injective : Function.Injective hexByte := by
  intro a b same
  have digits : ∀ m < 16, ∀ n < 16, Nat.digitChar m = Nat.digitChar n → m = n := by decide
  obtain ⟨high, low⟩ := List.cons.inj same
  have highs := digits _ (by have := a.toNat_lt; omega) _ (by have := b.toNat_lt; omega) high
  have lows := digits _ (by omega) _ (by omega) (List.cons.inj low).1
  exact UInt8.toNat_inj.mp (by omega)

theorem flatMap_hexByte_injective : Function.Injective (List.flatMap hexByte) := by
  intro a b same
  induction a generalizing b with
  | nil =>
      cases b with
      | nil => rfl
      | cons y b => cases same
  | cons x a ih =>
      cases b with
      | nil => cases same
      | cons y b =>
          obtain ⟨first, others⟩ := List.append_inj same rfl
          rw [hexByte_injective first, ih others]

theorem take_flatMap_hexByte (n : Nat) (bytes : List UInt8) :
    (bytes.flatMap hexByte).take (2 * n) = (bytes.take n).flatMap hexByte := by
  induction bytes generalizing n with
  | nil => simp
  | cons x bytes ih =>
      cases n with
      | zero => rfl
      | succ n => exact congrArg (hexByte x ++ ·) (ih n)

end Digest.Blake3

open Digest

/-- What the id of a symbol is derived from. -/
structure Seed where
  path : String
  kind : SymbolKind
  qualifiedName : String
  ordinal : Nat
  deriving DecidableEq

namespace Seed

def id (s : Seed) : SymbolId :=
  SymbolId.derive s.path s.kind s.qualifiedName s.ordinal

/-- The bytes of the hash that the id writes in digits. -/
def digest (s : Seed) : List UInt8 :=
  (Blake3.hash (SymbolId.keyBytes s.path s.kind s.qualifiedName s.ordinal)).take 16

theorem id_eq_ofList (s : Seed) : s.id = String.ofList (s.digest.flatMap Blake3.hexByte) := by
  rw [id, SymbolId.derive, Text.takeChars, Blake3.hexHash, String.toList_ofList]
  exact congrArg String.ofList (Blake3.take_flatMap_hexByte 16 _)

theorem digest_of_id {s t : Seed} (same : s.id = t.id) : s.digest = t.digest := by
  rw [id_eq_ofList, id_eq_ofList, String.ofList_inj] at same
  exact Blake3.flatMap_hexByte_injective same

/-- Ids are told apart by their bytes, which take less to compute than their digits. -/
theorem nodup_ids {seeds : List Seed} (distinct : (seeds.map digest).Nodup) :
    (seeds.map Seed.id).Nodup := by
  refine List.pairwise_map.mpr ((List.pairwise_map.mp distinct).imp ?_)
  exact fun apart same => apart (digest_of_id same)

/-- No two of the seeds collide. -/
def Apart (seeds : List Seed) : Prop :=
  ∀ a ∈ seeds, ∀ b ∈ seeds, a.id = b.id → a = b

theorem Apart.mono {few many : List Seed} (apart : Apart many) (h : few ⊆ many) : Apart few :=
  fun a ha b hb => apart a (h ha) b (h hb)

theorem Apart.of_nodup {seeds : List Seed} (distinct : (seeds.map digest).Nodup) : Apart seeds :=
  fun _ ha _ hb same => List.inj_on_of_nodup_map (nodup_ids distinct) ha hb same

/-- The ordinals that can come into use among `n` symbols: those of an extraction, and those that
    are tried for a fresh id. -/
def ordinals (n : Nat) : List Nat :=
  List.range n ++ (List.range (3 * n + 2)).map (1000 + ·)

/-- The seeds that a pool of symbols can bring into use. -/
def ofPool (pool : List Symbol) : List Seed :=
  pool.flatMap fun s => (ordinals pool.length).map fun n => ⟨s.unit.path, s.kind, s.qualifiedName, n⟩

theorem mem_ofPool {pool : List Symbol} {s : Symbol} {n : Nat} (hs : s ∈ pool)
    (hn : n ∈ ordinals pool.length) : ⟨s.unit.path, s.kind, s.qualifiedName, n⟩ ∈ ofPool pool :=
  List.mem_flatMap.mpr ⟨s, hs, List.mem_map.mpr ⟨n, hn, rfl⟩⟩

theorem mem_ordinals_low {n k : Nat} (h : k < n) : k ∈ ordinals n :=
  List.mem_append_left _ (List.mem_range.mpr h)

theorem mem_ordinals_high {n k : Nat} (h : k < 3 * n + 2) : 1000 + k ∈ ordinals n :=
  List.mem_append_right _ (List.mem_map.mpr ⟨k, List.mem_range.mpr h, rfl⟩)

end Seed

end CodeSearch

/-! ## What a walk adds -/

namespace CodeSearch

open Syntax

/-- A symbol apart from the other symbols that it mentions. -/
def Symbol.bare (s : Symbol) : Symbol :=
  { s with parent := none, relations := [] }

/-- The texts of all nodes of a parsed source. -/
def Syntax.Parsed.texts (p : Parsed) : List String :=
  p.ast.preorder.map (·.text p.text)

namespace Extract

/-- Number of symbols with the kind and qualified name of `s`. -/
def namesakes (symbols : List Symbol) (s : Symbol) : Nat :=
  symbols.countP fun t => t.kind == s.kind && t.qualifiedName == s.qualifiedName

/-- What is known of a symbol that comes behind those in `before`. -/
structure Emitted (i : Input) (texts : List String) (before : List Symbol) (s : Symbol) : Prop where
  id : s.id = SymbolId.derive i.unit.path s.kind s.qualifiedName (namesakes before s)
  unit : s.unit = ⟨i.unit.path, i.unit.version⟩
  body : ∃ text ∈ texts,
    s.bodyHash = Digest.contentHash text ∧ s.snippet = Text.takeChars i.snippetChars text

/-- Every symbol of a list is as a walk emits it. -/
def Walked (i : Input) (texts : List String) (symbols : List Symbol) : Prop :=
  ∀ n (inside : n < symbols.length), Emitted i texts (symbols.take n) symbols[n]

variable {i : Input} {texts : List String}

theorem namesakes_bare (symbols : List Symbol) (s : Symbol) :
    namesakes (symbols.map Symbol.bare) s.bare = namesakes symbols s := by
  simp only [namesakes, List.countP_map, Function.comp_def, Symbol.bare]

theorem emitted_bare {before : List Symbol} {s : Symbol} :
    Emitted i texts (before.map Symbol.bare) s.bare ↔ Emitted i texts before s := by
  have same : namesakes (before.map Symbol.bare) s.bare = namesakes before s := namesakes_bare ..
  constructor
  · intro h
    exact ⟨same ▸ h.id, h.unit, h.body⟩
  · intro h
    exact ⟨same.symm ▸ h.id, h.unit, h.body⟩

theorem walked_bare {symbols : List Symbol} :
    Walked i texts (symbols.map Symbol.bare) ↔ Walked i texts symbols := by
  simp only [Walked, List.length_map, List.getElem_map, ← List.map_take, emitted_bare]

theorem Walked.congr {symbols changed : List Symbol} (h : Walked i texts symbols)
    (same : changed.map Symbol.bare = symbols.map Symbol.bare) : Walked i texts changed :=
  walked_bare.mp (same ▸ walked_bare.mpr h)

theorem Walked.append {symbols : List Symbol} {s : Symbol} (h : Walked i texts symbols)
    (last : Emitted i texts symbols s) : Walked i texts (symbols ++ [s]) := by
  intro n inside
  rw [List.length_append, List.length_singleton] at inside
  rcases Nat.lt_succ_iff_lt_or_eq.mp inside with earlier | same
  · rw [List.getElem_append_left earlier, List.take_append_of_le_length (Nat.le_of_lt earlier)]
    exact h n earlier
  · subst same
    simpa using last

/-- What a change of one symbol keeps is kept of all symbols. -/
theorem map_modify {β : Type} {g : Symbol → β} (symbols : List Symbol) (number : Nat)
    {change : Symbol → Symbol} (keeps : ∀ s, g (change s) = g s) :
    (symbols.modify number change).map g = symbols.map g := by
  refine List.ext_getElem? fun n => ?_
  simp only [List.getElem?_map, List.getElem?_modify]
  cases symbols[n]? with
  | none => rfl
  | some s =>
      by_cases here : number = n
      · simp [here, keeps]
      · simp [here]

theorem forall_mem_modify {P : Symbol → Prop} {symbols : List Symbol} (all : ∀ s ∈ symbols, P s)
    (number : Nat) {change : Symbol → Symbol} (keeps : ∀ s, P s → P (change s)) :
    ∀ s ∈ symbols.modify number change, P s := by
  intro s hs
  obtain ⟨n, hn⟩ := List.mem_iff_getElem?.mp hs
  rw [List.getElem?_modify, Option.map_eq_map, Option.map_eq_some_iff] at hn
  obtain ⟨t, ht, rfl⟩ := hn
  have before : P t := all t (List.mem_of_getElem? ht)
  split
  · exact keeps t before
  · exact before

namespace Found

theorem relate_bare (f : Found) (number : Nat) (r : Relation) :
    (f.relate number r).symbols.map Symbol.bare = f.symbols.map Symbol.bare := by
  refine map_modify f.symbols number fun s => ?_
  split
  · rfl
  · rfl

theorem emit_walked {f : Found} (h : Walked i texts f.symbols) {n : Node}
    (known : n.text i.text ∈ texts) (kind : SymbolKind) (name qualifiedName : String)
    (parent : Option SymbolId) (relations : List Relation) (shape : Option Shape) :
    Walked i texts (f.emit i n kind name qualifiedName parent relations shape).symbols :=
  h.append ⟨rfl, rfl, n.text i.text, known, rfl, rfl⟩

theorem define_walked {f : Found} (h : Walked i texts f.symbols) {t : Ast}
    (known : t.data.text i.text ∈ texts) (scopes : List Scope) (kind : SymbolKind) (name : String) :
    Walked i texts (f.define i scopes t kind name).1.symbols := by
  simp only [define]
  split
  · exact emit_walked h known _ _ _ _ _ _
  · exact emit_walked h known _ _ _ _ _ _

theorem call_walked {f : Found} (h : Walked i texts f.symbols) {n : Node}
    (known : n.text i.text ∈ texts) (scopes : List Scope) (callee : String) :
    Walked i texts (f.call i scopes n callee).symbols := by
  simp only [call]
  split
  · exact emit_walked (h.congr (relate_bare f _ _)) known _ _ _ _ _ _
  · exact emit_walked h known _ _ _ _ _ _

theorem imports_walked {f : Found} (h : Walked i texts f.symbols) {n : Node}
    (known : n.text i.text ∈ texts) (scopes : List Scope) (targets : List String) :
    Walked i texts (targets.foldl (fun f x => f.importTarget i scopes n x) f).symbols := by
  induction targets generalizing f with
  | nil => exact h
  | cons target rest ih => exact ih (emit_walked h known _ _ _ _ _ _)

end Found

theorem visit_walked {f : Found} (h : Walked i texts f.symbols) {t : Ast}
    (known : t.data.text i.text ∈ texts) (scopes : List Scope) :
    Walked i texts (visit i scopes t f).found.symbols := by
  cases hk : symbolKind? t.data with
  | none =>
      simp only [visit, hk]
      split
      · exact h
      · exact h
  | some kind =>
      cases kind with
      | importing =>
          simp only [visit, hk]
          exact Found.imports_walked h known scopes _
      | call =>
          simp only [visit, hk]
          split
          · exact Found.call_walked h known scopes _
          · exact h
      | var =>
          simp only [visit, hk]
          split
          · split
            · exact h
            · exact Found.emit_walked h known _ _ _ _ _ _
          · exact h
      | function | type =>
          simp only [visit, hk]
          split
          · exact Found.define_walked h known scopes _ _
          · exact h

/-- All nodes that a step leads to have some property. -/
def Step.Over (p : Node → Prop) : Step → Prop
  | .enter t => ∀ n ∈ t.preorder, p n
  | .leave => True

theorem preorder_child {t child : Ast} (h : child ∈ t.children) : child.preorder ⊆ t.preorder := by
  cases t with
  | node data children =>
      have inAll : child.preorder ⊆ Ast.preorderAll children := by
        induction children with
        | nil => cases h
        | cons first rest ih =>
            rcases List.mem_cons.mp h with same | inRest
            · exact same ▸ List.subset_append_left _ _
            · exact List.Subset.trans (ih inRest) (List.subset_append_right _ _)
      exact List.Subset.trans inAll (List.subset_cons_self _ _)

theorem data_mem_preorder (t : Ast) : t.data ∈ t.preorder := by
  cases t with
  | node data children => exact List.mem_cons_self

/-- The nodes below a node have what the nodes from it on have, whether they are visited or not. -/
theorem over_below {p : Node → Prop} {t : Ast} {step : Step} (h : (Step.enter t).Over p)
    (descends : Bool) (below : step ∈ if descends then t.children.map Step.enter else []) :
    step.Over p := by
  cases descends with
  | false => cases below
  | true =>
      obtain ⟨child, inside, rfl⟩ := List.mem_map.mp below
      exact fun n hn => h n (preorder_child inside hn)

/-- What visits keep, and what is kept when scopes are left, holds in the end. -/
theorem walk_keeps {i : Input} {p : Node → Prop} {K : List Scope → Found → Prop}
    {P : Found → Prop} (ended : ∀ scopes f, K scopes f → P f)
    (leave : ∀ scopes f, K scopes f → K scopes.tail f)
    (visit : ∀ scopes f t, p t.data → K scopes f →
      K ((Extract.visit i scopes t f).scope.toList ++ scopes) (Extract.visit i scopes t f).found)
    {steps : List Step} {scopes : List Scope} {f : Found} (covered : ∀ step ∈ steps, step.Over p)
    (h : K scopes f) : P (walk i steps scopes f) := by
  fun_induction walk i steps scopes f with
  | case1 scopes f => exact ended scopes f h
  | case2 scopes f rest ih =>
      exact ih (fun step hs => covered step (List.mem_cons_of_mem _ hs)) (leave scopes f h)
  | case3 scopes f t rest v below noScope ih =>
      obtain ⟨first, others⟩ := List.forall_mem_cons.mp covered
      have visited := visit scopes f t (first _ (data_mem_preorder t)) h
      rw [noScope] at visited
      refine ih (fun step hs => ?_) visited
      rcases List.mem_append.mp hs with inBelow | inRest
      · exact over_below first _ inBelow
      · exact others step inRest
  | case4 scopes f t rest v below scope hasScope ih =>
      obtain ⟨first, others⟩ := List.forall_mem_cons.mp covered
      have visited := visit scopes f t (first _ (data_mem_preorder t)) h
      rw [hasScope] at visited
      refine ih (fun step hs => ?_) visited
      rcases List.mem_append.mp hs with inBelow | inRest
      · exact over_below first _ inBelow
      · rcases List.mem_cons.mp inRest with leave | inRest
        · exact leave ▸ trivial
        · exact others step inRest

theorem walk_walked {steps : List Step} {scopes : List Scope} {f : Found}
    (known : ∀ step ∈ steps, step.Over fun n => n.text i.text ∈ texts)
    (h : Walked i texts f.symbols) : Walked i texts (walk i steps scopes f).symbols :=
  walk_keeps (K := fun _ f => Walked i texts f.symbols) (fun _ _ h => h) (fun _ _ h => h)
    (fun scopes _ _ known h => visit_walked h known scopes) known h

/-! ## After the walk -/

theorem Found.adopt_bare (f : Found) (symbols : List Symbol) (member : Nat × String) :
    (f.adopt symbols member).map Symbol.bare = symbols.map Symbol.bare := by
  unfold adopt
  split
  · rename_i type _
    exact map_modify symbols member.1 fun _ => rfl
  · rfl

theorem Found.derive_bare (f g : Found) (base : String × String) :
    (f.derive g base).symbols.map Symbol.bare = g.symbols.map Symbol.bare := by
  unfold derive
  split
  · exact g.relate_bare _ _
  · rfl

theorem attach_bare (f : Found) : (attach f).map Symbol.bare = f.symbols.map Symbol.bare := by
  unfold attach
  refine List.foldlRecOn (motive := fun g : Found => g.symbols.map Symbol.bare = _) _ _ ?_
    fun g same base _ => (f.derive_bare g base).trans same
  exact List.foldlRecOn (motive := fun symbols : List Symbol => symbols.map Symbol.bare = _) _ _ rfl
    fun symbols same member _ => (f.adopt_bare symbols member).trans same

theorem resolveAll_bare (symbols : List Symbol) :
    (resolveAll symbols).map Symbol.bare = symbols.map Symbol.bare := by
  simp only [resolveAll, List.map_map]
  rfl

end Extract

open Extract

/-- How a walk over a parsed source is set up. -/
def Syntax.Parsed.input (p : Parsed) (unit : SourceUnit) (snippetChars : Nat) : Input :=
  { unit, text := p.text, language := p.language, snippetChars
    selfNames := p.language.grammar.selfNames }

theorem Syntax.Parsed.symbols_walked (p : Parsed) (unit : SourceUnit) (snippetChars : Nat) :
    Walked (p.input unit snippetChars) p.texts (p.symbols unit snippetChars) := by
  have walked : Walked (p.input unit snippetChars) p.texts
      (ofAst (p.input unit snippetChars) p.ast).symbols := by
    have known : (Step.enter p.ast).Over fun n => n.text p.text ∈ p.texts :=
      fun n hn => List.mem_map.mpr ⟨n, hn, rfl⟩
    exact walk_walked (fun step hs => over_below known true hs)
      fun n inside => absurd inside (Nat.not_lt_zero n)
  exact walked.congr ((resolveAll_bare _).trans (attach_bare _))

namespace Extract

/-- The seed of the symbol that stands at place `n`. -/
def seedAt (path : String) (symbols : List Symbol) (n : Nat) (s : Symbol) : Seed :=
  ⟨path, s.kind, s.qualifiedName, namesakes (symbols.take n) s⟩

/-- A symbol is a namesake of itself, so namesakes at later places have larger ordinals. -/
theorem namesakes_lt {symbols : List Symbol} {m n : Nat} (before : m < n)
    (inside : n < symbols.length) (kind : symbols[m].kind = symbols[n].kind)
    (name : symbols[m].qualifiedName = symbols[n].qualifiedName) :
    namesakes (symbols.take m) symbols[m] < namesakes (symbols.take n) symbols[n] := by
  have insideToo : m < symbols.length := Nat.lt_trans before inside
  have counted : namesakes (symbols.take (m + 1)) symbols[m] =
      namesakes (symbols.take m) symbols[m] + 1 := by
    rw [List.take_succ_eq_append_getElem insideToo, namesakes, List.countP_append]
    simp [namesakes]
  calc
    namesakes (symbols.take m) symbols[m] < namesakes (symbols.take (m + 1)) symbols[m] := by omega
    _ ≤ namesakes (symbols.take n) symbols[m] :=
        (List.take_sublist_take_left before).countP_le
    _ = namesakes (symbols.take n) symbols[n] := by simp only [namesakes, kind, name]

theorem Walked.ids_nodup {i : Input} {texts : List String} {symbols : List Symbol}
    (h : Walked i texts symbols) {seeds : List Seed} (apart : Seed.Apart seeds)
    (known : ∀ n (inside : n < symbols.length), seedAt i.unit.path symbols n symbols[n] ∈ seeds) :
    (symbols.map (·.id)).Nodup := by
  rw [List.nodup_iff_pairwise_ne, List.pairwise_map, List.pairwise_iff_getElem]
  intro m n insideM insideN before same
  rw [(h m insideM).id, (h n insideN).id] at same
  have seeds := apart _ (known m insideM) _ (known n insideN) same
  simp only [seedAt, Seed.mk.injEq] at seeds
  obtain ⟨-, kind, name, ordinal⟩ := seeds
  exact absurd ordinal (Nat.ne_of_lt (namesakes_lt before insideN kind name))

end Extract

end CodeSearch
