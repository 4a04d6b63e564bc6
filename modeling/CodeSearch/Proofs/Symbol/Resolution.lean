import CodeSearch.Proofs.Symbol.Forest
import CodeSearch.Proofs.Symbol.Traversal
import Mathlib.Data.List.Forall2
import Mathlib.Data.List.Induction

/-! # Names looked up in their file

After the walk every name that is written is looked up among the definitions of its file, wherever
they stand: a call leads to the first function that has the last segment of the name, or else to
the first type, and a base to the first type. Before that, members get the type to which they
belong as their parent, and types the bases of their member blocks. Both go by the first type of a
qualified name.
-/

namespace CodeSearch

open Syntax

namespace Extract

/-! ## First symbols -/

/-- The first symbol in document order of which something holds. -/
def First (symbols : List Symbol) (p : Symbol → Prop) (s : Symbol) : Prop :=
  ∃ before after, symbols = before ++ s :: after ∧ p s ∧ ∀ d ∈ before, ¬p d

/-- A definition is of a kind, and has a simple name. -/
def Defines (kind : SymbolKind) (name : String) (s : Symbol) : Prop :=
  s.kind = kind ∧ s.name = name

/-- A type has a qualified name. -/
def IsType (owner : String) (s : Symbol) : Prop :=
  s.kind = .type ∧ s.qualifiedName = owner

theorem find?_eq_some_iff_first {symbols : List Symbol} {test : Symbol → Bool} {p : Symbol → Prop}
    (same : ∀ s, test s = true ↔ p s) {s : Symbol} :
    symbols.find? test = some s ↔ First symbols p s := by
  have fails (d : Symbol) : (!test d) = true ↔ ¬p d := by
    rw [← same, Bool.not_eq_true, Bool.not_eq_true']
  simp only [List.find?_eq_some_iff_append, same, fails, First]
  constructor
  · rintro ⟨holds, before, after, parts, earlier⟩
    exact ⟨before, after, parts, holds, earlier⟩
  · rintro ⟨before, after, parts, holds, earlier⟩
    exact ⟨holds, before, after, parts, earlier⟩

theorem defines_iff {kind : SymbolKind} {name : String} (s : Symbol) :
    (s.kind == kind && s.name == name) = true ↔ Defines kind name s := by
  rw [Bool.and_eq_true, beq_iff_eq, beq_iff_eq, Defines]

theorem isType_iff {owner : String} (s : Symbol) :
    (s.kind == .type && s.qualifiedName == owner) = true ↔ IsType owner s := by
  rw [Bool.and_eq_true, beq_iff_eq, beq_iff_eq, IsType]

/-- The first type of a qualified name. -/
def typeOf? (symbols : List Symbol) (owner : String) : Option Symbol :=
  symbols.find? fun s => s.kind == .type && s.qualifiedName == owner

theorem typeNamed?_eq (f : Found) (owner : String) : f.typeNamed? owner =
    f.symbols.findIdx? fun s => s.kind == .type && s.qualifiedName == owner := by
  rw [Found.typeNamed?, List.find?_filter, List.findIdx?_eq_fst_find?_zipIdx]
  simp only [Bool.decide_and, Bool.decide_eq_true]

theorem typeNamed?_getElem? (f : Found) (owner : String) :
    (f.typeNamed? owner).bind (f.symbols[·]?) = typeOf? f.symbols owner := by
  rw [typeNamed?_eq, typeOf?, List.find?_eq_bind_findIdx?_getElem?]

/-! ## Looking up -/

/-- The definition to which a name leads that is written in a relation of some kind. -/
inductive Leads (symbols : List Symbol) (written : String) : RelationKind → Symbol → Prop
  | function {d : Symbol} (first : First symbols (Defines .function (Text.lastSegment written)) d) :
      Leads symbols written .calls d
  | type {d : Symbol} (other : ∀ f ∈ symbols, ¬Defines .function (Text.lastSegment written) f)
      (first : First symbols (Defines .type (Text.lastSegment written)) d) :
      Leads symbols written .calls d
  | base {d : Symbol} (first : First symbols (Defines .type (Text.lastSegment written)) d) :
      Leads symbols written .inherits d

/-- A definition could be what a relation of some kind names. What is imported is never looked for
    in the file. -/
def Answers (written : String) : RelationKind → Symbol → Prop
  | .calls, d =>
    Defines .function (Text.lastSegment written) d ∨ Defines .type (Text.lastSegment written) d
  | .inherits, d => Defines .type (Text.lastSegment written) d
  | .imports, _ => False

/-- What becomes of a relation as it is written: it points at the definition to which its name
    leads, or keeps its name when there is no definition that it could name. -/
inductive LookedUp (symbols : List Symbol) : Relation → Relation → Prop
  | found {kind : RelationKind} {written : String} {d : Symbol}
      (leads : Leads symbols written kind d) :
      LookedUp symbols ⟨kind, .unresolved written⟩ ⟨kind, .resolved d.id⟩
  | kept {kind : RelationKind} {written : String}
      (absent : ∀ d ∈ symbols, ¬Answers written kind d) :
      LookedUp symbols ⟨kind, .unresolved written⟩ ⟨kind, .unresolved written⟩

section

variable {symbols : List Symbol}

theorem firstNamed?_eq_some_iff {kind : SymbolKind} {name : String} {id : SymbolId} :
    firstNamed? symbols kind name = some id ↔ ∃ d, First symbols (Defines kind name) d ∧ d.id = id := by
  simp only [firstNamed?, Option.map_eq_some_iff, find?_eq_some_iff_first defines_iff]

theorem firstNamed?_eq_none_iff {kind : SymbolKind} {name : String} :
    firstNamed? symbols kind name = none ↔ ∀ d ∈ symbols, ¬Defines kind name d := by
  simp only [firstNamed?, Option.map_eq_none_iff, List.find?_eq_none, defines_iff]

theorem resolve_lookedUp (symbols : List Symbol) (kind : RelationKind) (written : String) :
    LookedUp symbols ⟨kind, .unresolved written⟩
      (resolve symbols ⟨kind, .unresolved written⟩) := by
  cases kind with
  | calls =>
      simp only [resolve]
      cases function : firstNamed? symbols .function (Text.lastSegment written) with
      | some id =>
          obtain ⟨d, first, rfl⟩ := firstNamed?_eq_some_iff.mp function
          exact .found (.function first)
      | none =>
          have other := firstNamed?_eq_none_iff.mp function
          cases type : firstNamed? symbols .type (Text.lastSegment written) with
          | some id =>
              obtain ⟨d, first, rfl⟩ := firstNamed?_eq_some_iff.mp type
              exact .found (.type other first)
          | none =>
              refine .kept fun d hd answers => ?_
              rcases answers with function | isType
              · exact other d hd function
              · exact firstNamed?_eq_none_iff.mp type d hd isType
  | inherits =>
      simp only [resolve]
      cases type : firstNamed? symbols .type (Text.lastSegment written) with
      | some id =>
          obtain ⟨d, first, rfl⟩ := firstNamed?_eq_some_iff.mp type
          exact .found (.base first)
      | none => exact .kept (firstNamed?_eq_none_iff.mp type)
  | imports => exact .kept fun _ _ answers => answers

/-! ## Symbols that differ in parents and relations only -/

variable {changed : List Symbol} (same : changed.map Symbol.bare = symbols.map Symbol.bare)

include same

/-- What is looked for by kind and names is the same symbol but for its parent and relations. -/
theorem find?_id_of_bare {test : Symbol → Bool} (bare : ∀ s : Symbol, test s.bare = test s) :
    (changed.find? test).map (·.id) = (symbols.find? test).map (·.id) := by
  have stripped (l : List Symbol) :
      (l.find? test).map (·.id) = ((l.map Symbol.bare).find? test).map (·.id) := by
    rw [List.find?_map, Option.map_map, funext (f := test ∘ Symbol.bare) bare]
    rfl
  rw [stripped changed, same, ← stripped symbols]

theorem resolve_of_bare : resolve changed = resolve symbols := by
  have named (kind : SymbolKind) (name : String) :
      firstNamed? changed kind name = firstNamed? symbols kind name :=
    find?_id_of_bare same fun _ => rfl
  funext r
  simp only [resolve, named]

end

/-! ## Attaching -/

/-- Change what stands at a place, if there is one. -/
def modifyAt {α : Type} (l : List α) (place : Option Nat) (change : α → α) : List α :=
  match place with
  | some n => l.modify n change
  | none => l

theorem getElem?_modifyAt {α : Type} (l : List α) (place : Option Nat) (change : α → α) (n : Nat) :
    (modifyAt l place change)[n]? = l[n]?.map fun a => if place = some n then change a else a := by
  cases place with
  | none => simp [modifyAt]
  | some m => simp [modifyAt, List.getElem?_modify]

/-- Of many changes, those of a place are made to what stands there. -/
theorem getElem?_foldl_modifyAt {α β : Type} (place : β → Option Nat) (change : β → α → α)
    (changes : List β) (l : List α) (n : Nat) :
    (changes.foldl (fun l b => modifyAt l (place b) (change b)) l)[n]? = l[n]?.map fun a =>
      (changes.filter fun b => place b == some n).foldl (fun a b => change b a) a := by
  induction changes generalizing l with
  | nil => simp
  | cons b rest ih =>
      rw [List.foldl_cons, ih, getElem?_modifyAt, Option.map_map]
      congr 1
      funext a
      by_cases here : place b = some n
      · simp [here]
      · simp [here]

/-- Give a symbol the first type of a qualified name as its parent, if there is such a type. -/
def rehang (symbols : List Symbol) (owner : String) (s : Symbol) : Symbol :=
  { s with parent := ((typeOf? symbols owner).map (·.id)).or s.parent }

theorem adopt_eq (f : Found) (symbols : List Symbol) (member : Nat × String) :
    f.adopt symbols member =
      modifyAt symbols (some member.1) (rehang f.symbols member.2) := by
  rw [Found.adopt, typeNamed?_getElem?, modifyAt]
  cases owner : typeOf? f.symbols member.2 with
  | some type =>
      have change : rehang f.symbols member.2 = fun s => { s with parent := some type.id } := by
        funext s
        rw [rehang, owner]
        rfl
      rw [change]
  | none =>
      have change : rehang f.symbols member.2 = id := by
        funext s
        rw [rehang, owner]
        rfl
      rw [change]
      exact (List.modify_id _ _).symm

theorem derive_eq (f g : Found) (base : String × String) : (f.derive g base).symbols =
    modifyAt g.symbols (f.typeNamed? base.1) (addRelation ⟨.inherits, .unresolved base.2⟩) := by
  unfold Found.derive modifyAt
  cases f.typeNamed? base.1 with
  | some number => exact congrArg Found.symbols (relate_eq g number _)
  | none => rfl

/-- The bases of its member blocks are related to a type, and members are hung up on their owner. -/
theorem getElem?_attach (f : Found) (n : Nat) : (attach f)[n]? = f.symbols[n]?.map fun s =>
    (f.bases.filter fun base => f.typeNamed? base.1 == some n).foldl
      (fun s base => addRelation ⟨.inherits, .unresolved base.2⟩ s)
      ((f.owned.filter fun member => some member.1 == some n).foldl
        (fun s member => rehang f.symbols member.2 s) s) := by
  have adopted : f.owned.foldl f.adopt f.symbols = f.owned.foldl (fun l member =>
      modifyAt l (some member.1) (rehang f.symbols member.2)) f.symbols := by
    congr 1
    funext l member
    exact adopt_eq f l member
  have derived (g : Found) : (f.bases.foldl f.derive g).symbols = f.bases.foldl (fun l base =>
      modifyAt l (f.typeNamed? base.1) (addRelation ⟨.inherits, .unresolved base.2⟩)) g.symbols :=
    (List.foldl_hom Found.symbols fun g base => (derive_eq f g base).symm).symm
  rw [attach, derived, getElem?_foldl_modifyAt, adopted, getElem?_foldl_modifyAt, Option.map_map]
  rfl

/-! ## The symbol of an entry -/

/-- Number of the first type of a qualified name. -/
def typeAt? (listed : List Entry) (owner : String) : Option Nat :=
  listed.findIdx? fun e => e.kind == .type && e.qualifiedName == owner

/-- The bases that member blocks give to the entry with a number: to the first type of their
    name. -/
def basesFor (listed : List Entry) (bases : List (String × String)) (n : Nat) : List Relation :=
  (bases.filter fun base => typeAt? listed base.1 == some n).map fun base =>
    ⟨.inherits, .unresolved base.2⟩

/-- The relations of an entry as they are written: those of its node, then one for each call in
    its body, then those to the bases of member blocks, each of them once. -/
def writtenAt (listed : List Entry) (bases : List (String × String)) (n : Nat) (e : Entry) :
    List Relation :=
  ((listed.drop (n + 1)).filterMap (Entry.callIn? n) ++ basesFor listed bases n).foldl joined
    e.relations

section

variable {i : Input} {listed : List Entry} {bases : List (String × String)} {n : Nat} {e : Entry}

theorem typeNamed?_foundOf (i : Input) (listed : List Entry) (bases : List (String × String))
    (owner : String) : (foundOf i listed bases).typeNamed? owner = typeAt? listed owner := by
  rw [typeNamed?_eq, typeAt?, foundOf]
  have same : (symbolsOf i listed).map (fun s => (s.kind, s.qualifiedName)) =
      listed.map fun e => (e.kind, e.qualifiedName) := symbolsOf_map fun _ _ _ => rfl
  have found := congrArg (List.findIdx? fun p => p.1 == .type && p.2 == owner) same
  rwa [List.findIdx?_map, List.findIdx?_map] at found

/-- An entry is listed among the members once at most. -/
theorem ownedOf_filter (listed : List Entry) (n : Nat) :
    (ownedOf listed).filter (fun member => some member.1 == some n) =
      ((listed[n]?.bind Entry.owner?).map fun owner => (n, owner)).toList := by
  induction listed using List.reverseRecOn with
  | nil => rfl
  | append_singleton listed e ih =>
      rw [ownedOf_snoc, List.filter_append, ih]
      rcases Nat.lt_trichotomy n listed.length with before | rfl | behind
      · have other : listed.length ≠ n := Nat.ne_of_gt before
        rw [List.getElem?_append_left before]
        cases e.owner? with
        | none => simp
        | some owner => simp [other]
      · rw [List.getElem?_append_right (Nat.le_refl _), Nat.sub_self]
        cases owner : e.owner? with
        | none => simp [owner]
        | some owner => simp [owner]
      · have other : listed.length ≠ n := Nat.ne_of_lt behind
        have outside : (listed ++ [e])[n]? = none := by
          rw [List.getElem?_eq_none_iff, List.length_append]
          exact behind
        rw [outside, List.getElem?_eq_none (Nat.le_of_lt behind)]
        cases e.owner? with
        | none => simp
        | some owner => simp [other]

theorem foldl_addRelation (bases : List (String × String)) (s : Symbol) :
    (bases.foldl (fun s base => addRelation ⟨.inherits, .unresolved base.2⟩ s) s) =
      { s with
        relations := (bases.map fun base => ⟨.inherits, .unresolved base.2⟩).foldl joined
          s.relations } := by
  induction bases generalizing s with
  | nil => rfl
  | cons base rest ih =>
      rw [List.foldl_cons, ih]
      rfl

/-- The symbol of an entry after attaching. -/
def Entry.attached (i : Input) (listed : List Entry) (bases : List (String × String)) (n : Nat)
    (e : Entry) : Symbol :=
  let owner := e.owner?.bind (typeOf? (symbolsOf i listed))
  let inner := (enclosing e.scopes).bind fun number => (ids i.unit.path (listed.take n))[number]?
  { e.symbol i (listed.take n) (listed.drop (n + 1)) with
    parent := (owner.map (·.id)).or inner
    relations := writtenAt listed bases n e }

theorem getElem?_attach_foundOf (i : Input) (listed : List Entry) (bases : List (String × String))
    (n : Nat) : (attach (foundOf i listed bases))[n]? =
      listed[n]?.map (Entry.attached i listed bases n) := by
  rw [getElem?_attach]
  simp only [typeNamed?_foundOf]
  simp only [foundOf, getElem?_symbolsOf, ownedOf_filter, foldl_addRelation]
  cases held : listed[n]? with
  | none => rfl
  | some e =>
      have before : (listed.take n).length = n := by
        have inside := (List.getElem?_eq_some_iff.mp held).1
        rw [List.length_take]
        omega
      simp only [Option.map_some, Option.bind_some, Entry.attached, writtenAt, basesFor,
        List.foldl_append]
      cases e.owner? with
      | none => simp [Entry.symbol, before]
      | some owner => simp [Entry.symbol, rehang, before]

theorem writtenAt_loose : Loose (writtenAt listed bases n e) := by
  have own : Loose e.relations := by
    unfold Entry.relations
    split
    · exact bases_loose e.tree
    · exact bases_loose e.tree
    · exact loose_single _ _
    · exact loose_single _ _
    · exact fun r inside => absurd inside List.not_mem_nil
  intro r inside
  rcases mem_foldl_joined.mp inside with before | after
  · exact own r before
  · rcases List.mem_append.mp after with called | based
    · obtain ⟨d, -, found⟩ := List.mem_filterMap.mp called
      obtain ⟨-, same⟩ := Option.ite_none_right_eq_some.mp found
      exact ⟨d.name, Option.some.inj same ▸ rfl⟩
    · obtain ⟨base, -, rfl⟩ := List.mem_map.mp based
      exact ⟨base.2, rfl⟩

theorem ids_take (path : String) (listed : List Entry) (n : Nat) :
    ids path (listed.take n) = (ids path listed).take n := by
  refine List.ext_getElem? fun m => ?_
  rw [List.getElem?_take, getElem?_ids, getElem?_ids, List.getElem?_take]
  by_cases before : m < n
  · simp only [before, if_true, List.take_take, Nat.min_eq_left (Nat.le_of_lt before)]
  · simp only [before, if_false, Option.map_none]

end

/-! ## Local resolution -/

/-- What is extracted for an entry of a tree: its relations as they are written, looked up among
    the extracted symbols, and as its parent the definition around it or, outside of all
    definitions, the first type to which it belongs by name. -/
structure Entry.Resolved (t : Ast) (symbols : List Symbol) (n : Nat) (e : Entry) (s : Symbol) :
    Prop where
  kind : s.kind = e.kind
  name : s.name = e.name
  qualifiedName : s.qualifiedName = e.qualifiedName
  relations : List.Forall₂ (LookedUp symbols)
    (writtenAt (entries t) (basesInAll t.children) n e) s.relations
  member : ∀ owner, e.owner? = some owner → ∀ id,
    s.parent = some id ↔ ∃ d, First symbols (IsType owner) d ∧ d.id = id
  inner : e.owner? = none →
    s.parent = (enclosing e.scopes).bind fun number => symbols[number]?.map (·.id)

/-- The symbols of a tree with their names looked up in the file: one for each entry of the tree,
    in document order. -/
structure LocallyResolved (t : Ast) (symbols : List Symbol) : Prop where
  places : symbols.length = (entries t).length
  each : ∀ n (e : Entry) s, (entries t)[n]? = some e → symbols[n]? = some s → e.Resolved t symbols n s

/-- The scope around an entry with a number is that of an entry before it. -/
theorem Settled.enclosing_lt {listed : List Entry} (settled : Settled listed) {n number : Nat}
    {e : Entry} (held : listed[n]? = some e) (around : enclosing e.scopes = some number) :
    number < n := by
  obtain ⟨scope, inside, numbered⟩ := List.exists_of_findSome?_eq_some around
  obtain ⟨d, place, -, -⟩ := settled n e held scope inside number numbered
  have before := (List.getElem?_eq_some_iff.mp place).1
  rw [List.length_take] at before
  omega

section

variable (i : Input) (t : Ast)

theorem resolved_bare : (resolveAll (attach (ofAst i t))).map Symbol.bare =
    (symbolsOf i (entries t)).map Symbol.bare := by
  rw [resolveAll_bare, attach_bare, ofAst_eq, foundOf]

theorem resolved_ids : (resolveAll (attach (ofAst i t))).map (·.id) =
    ids i.unit.path (entries t) := by
  rw [ids_of_bare (resolved_bare i t), symbolsOf_ids]

theorem getElem?_resolved (n : Nat) : (resolveAll (attach (ofAst i t)))[n]? =
    (entries t)[n]?.map fun e =>
      { e.attached i (entries t) (basesInAll t.children) n with
        relations := (writtenAt (entries t) (basesInAll t.children) n e).map
          (resolve (resolveAll (attach (ofAst i t)))) } := by
  rw [resolve_of_bare (resolveAll_bare (attach (ofAst i t))), resolveAll, List.getElem?_map,
    ofAst_eq, getElem?_attach_foundOf, Option.map_map]
  rfl

theorem resolveAll_locallyResolved : LocallyResolved t (resolveAll (attach (ofAst i t))) := by
  have bare := resolved_bare i t
  have listedIds := resolved_ids i t
  have entry := getElem?_resolved i t
  generalize resolveAll (attach (ofAst i t)) = symbols at bare listedIds entry
  refine ⟨?_, fun n e s listed held => ?_⟩
  · have lengths := congrArg List.length bare
    rwa [List.length_map, List.length_map, symbolsOf_length] at lengths
  · rw [entry, listed] at held
    obtain rfl := Option.some.inj held
    refine ⟨rfl, rfl, rfl, ?_, fun owner owned id => ?_, fun free => ?_⟩
    · -- the relations
      refine List.forall₂_map_right_iff.mpr (List.forall₂_same.mpr fun r inside => ?_)
      obtain ⟨written, loose⟩ := writtenAt_loose r inside
      obtain ⟨kind, target⟩ := r
      cases loose
      exact resolve_lookedUp symbols kind written
    · -- a member
      have outside : enclosing e.scopes = none := by
        unfold Entry.owner? at owned
        split at owned
        · assumption
        · assumption
        · cases owned
      have type : (typeOf? symbols owner).map (·.id) =
          (typeOf? (symbolsOf i (entries t)) owner).map (·.id) :=
        find?_id_of_bare bare fun _ => rfl
      simp only [Entry.attached, owned, outside, Option.bind_some, Option.bind_none, Option.or_none]
      rw [← type, Option.map_eq_some_iff]
      simp only [typeOf?, find?_eq_some_iff_first isType_iff]
    · -- in a definition, or outside of all
      simp only [Entry.attached, free, Option.bind_none, Option.map_none, Option.none_or]
      cases around : enclosing e.scopes with
      | none => rfl
      | some number =>
          have before := (entries_settled t).enclosing_lt listed around
          rw [Option.bind_some, Option.bind_some, ids_take, List.getElem?_take_of_lt before,
            ← listedIds, List.getElem?_map]

end

end Extract

open Extract

/-- What is extracted from a tree has each of its names looked up in the file, and each member
    attached to the type to which it belongs there. -/
theorem extract?_locallyResolved {registered : List Language} {p : Parsed}
    (known : p.language ∈ registered) (unit : SourceUnit) (snippetChars : Nat) :
    ∃ symbols, extract? registered p unit snippetChars = .ok symbols ∧
      LocallyResolved p.ast symbols :=
  ⟨_, if_pos known, resolveAll_locallyResolved (p.input unit snippetChars) p.ast⟩

/-- A method in Rust before its type, with calls of a function, of nothing and of a type. Function
    and type are defined twice, and the base of the block comes last. -/
def severalOfAName : Parsed :=
  let node (depth : Nat) (kind : String) (first last : Nat) : Nat × Label :=
    (depth, { kind, span := ⟨first, last, 1, 1⟩ })
  let part (depth : Nat) (field kind : String) (first last : Nat) : Nat × Label :=
    (depth, { kind, field := some field, span := ⟨first, last, 1, 1⟩ })
  let token (depth : Nat) (kind : String) (first last : Nat) : Nat × Label :=
    (depth, { kind, named := false, span := ⟨first, last, 1, 1⟩ })
  let call (first last : Nat) : List (Nat × Label) :=
    [node 5 "expression_statement" first (last + 3),
      node 6 "call_expression" first (last + 2), part 7 "function" "identifier" first last,
      part 7 "arguments" "arguments" last (last + 2), token 8 "(" last (last + 1),
      token 8 ")" (last + 1) (last + 2), token 6 ";" (last + 2) (last + 3)]
  let function (depth first last : Nat) (body : List (Nat × Label)) : List (Nat × Label) :=
    [node depth "function_item" first last, token (depth + 1) "fn" first (first + 2),
      part (depth + 1) "name" "identifier" (first + 3) (first + 5),
      part (depth + 1) "parameters" "parameters" (first + 5) (first + 7),
      token (depth + 2) "(" (first + 5) (first + 6), token (depth + 2) ")" (first + 6) (first + 7),
      part (depth + 1) "body" "block" (first + 7) last,
      token (depth + 2) "\x7b" (first + 7) (first + 8)] ++ body ++
      [token (depth + 2) "\x7d" (last - 1) last]
  let type (first : Nat) : List (Nat × Label) :=
    [node 1 "struct_item" first (first + 9), token 2 "struct" first (first + 6),
      part 2 "name" "type_identifier" (first + 7) (first + 8), token 2 ";" (first + 8) (first + 9)]
  let block : List (Nat × Label) :=
    [node 1 "impl_item" 0 41, token 2 "impl" 0 4, part 2 "trait" "type_identifier" 5 8,
      token 2 "for" 9 12, part 2 "type" "type_identifier" 13 14,
      part 2 "body" "declaration_list" 14 41, token 3 "\x7b" 14 15] ++
      function 3 15 40 (call 23 25 ++ call 28 32 ++ call 35 36) ++ [token 3 "\x7d" 40 41]
  let base : List (Nat × Label) :=
    [node 1 "trait_item" 68 79, token 2 "trait" 68 73, part 2 "name" "type_identifier" 74 77,
      part 2 "body" "declaration_list" 77 79, token 3 "\x7b" 77 78, token 3 "\x7d" 78 79]
  preordered .rust
    ("impl Run for S\x7bfn go()\x7bgo();stop();S();\x7d\x7d" ++
      "struct S;struct S;fn go()\x7b\x7dtrait Run\x7b\x7d")
    (node 0 "source_file" 0 79 :: block ++ type 41 ++ type 50 ++ function 1 59 68 [] ++ base)

theorem severalOfAName_resolved : ∃ symbols,
    extract? Language.all severalOfAName earlyUnit 2000 = .ok symbols ∧
      LocallyResolved severalOfAName.ast symbols :=
  extract?_locallyResolved (by decide) earlyUnit 2000

/-- Only what is not defined in the file keeps its name. -/
example :
    (severalOfAName.symbols earlyUnit 2000).map (fun s => (s.name, s.relations.map (·.name?))) =
      [("go", [none, some "stop", none]), ("go", [none]), ("stop", [some "stop"]), ("S", [none]),
        ("S", [none]), ("S", []), ("go", []), ("Run", [])] := by decide +kernel

end CodeSearch
