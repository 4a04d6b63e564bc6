import CodeSearch.Proofs.Symbol.Mentions
import CodeSearch.Proofs.Syntax.Names

/-! # The forest of extracted symbols

The parent of a symbol is a function or a type of the same source, and the way from parent to
parent comes to an end. During the walk a parent comes before all that it encloses. Afterwards
members are attached to the type that their block or receiver names, which may come later. But a
type that can be named so has no parent and stays without: every other type has a qualified name of
several segments.

Of the trees it is assumed that types are named by identifiers, as every grammar has it: their names
do not consist of separators alone.
-/

namespace CodeSearch

open Syntax

/-- What ties a symbol to others. -/
structure Link where
  id : SymbolId
  kind : SymbolKind
  qualifiedName : String
  parent : Option SymbolId

def Symbol.link (s : Symbol) : Link :=
  ⟨s.id, s.kind, s.qualifiedName, s.parent⟩

namespace Extract

/-- A link at some place encloses others. -/
structure EnclosingAt (links : List Link) (n : Nat) (up : Link) : Prop where
  place : links[n]? = some up
  kind : up.kind.Encloses

/-! ## Scopes -/

/-- A scope below the one of the file. -/
structure Inner (links : List Link) (scope : Scope) : Prop where
  kind : scope.kind ≠ .file
  qualifier : scope.qualifier ≠ ""
  owner : ∀ owner, scope.owner = some owner → ¬Text.Mixed owner
  symbol : ∀ n, scope.symbol = some n → ∃ up, EnclosingAt links n up

/-- The scopes around a node. When all are left, it is as if the file were around. -/
inductive Nested (links : List Link) : List Scope → Prop where
  | left : Nested links []
  | file : Nested links [{ kind := .file }]
  | inner {scope : Scope} {scopes : List Scope} : Inner links scope → Nested links scopes →
      Nested links (scope :: scopes)

section

variable {links : List Link} {scopes : List Scope}

theorem EnclosingAt.append {n : Nat} {up : Link} (h : EnclosingAt links n up) (more : List Link) :
    EnclosingAt (links ++ more) n up :=
  ⟨(List.getElem?_append_left (List.getElem?_eq_some_iff.mp h.place).1).trans h.place, h.kind⟩

theorem Nested.append (h : Nested links scopes) (more : List Link) :
    Nested (links ++ more) scopes := by
  induction h with
  | left => exact .left
  | file => exact .file
  | inner scope _ ih =>
      refine .inner ⟨scope.kind, scope.qualifier, scope.owner, fun n opened => ?_⟩ ih
      obtain ⟨up, enclosing⟩ := scope.symbol n opened
      exact ⟨up, enclosing.append more⟩

theorem Nested.tail (h : Nested links scopes) : Nested links scopes.tail := by
  cases h with
  | left | file => exact .left
  | inner _ outer => exact outer

theorem Nested.enclosing (h : Nested links scopes) {n : Nat} (around : enclosing scopes = some n) :
    ∃ up, EnclosingAt links n up := by
  induction h with
  | left | file => cases around
  | inner scope _ ih =>
      rw [Extract.enclosing, List.findSome?_cons] at around
      split at around
      · rename_i opened
        exact scope.symbol n (opened.trans around)
      · exact ih around

/-- Only in the scope of the file there is no qualifier, and nothing encloses it. -/
theorem Nested.innermost (h : Nested links scopes) :
    Extract.innermost scopes = { kind := .file } ∧ Extract.enclosing scopes = none ∨
      Inner links (Extract.innermost scopes) := by
  cases h with
  | left | file => exact .inl ⟨rfl, rfl⟩
  | inner scope _ => exact .inr scope

end

/-! ## Links during the walk -/

/-- What a walk makes of the links, and of the members that are to be attached: a parent comes
    before, and a type has a mixed qualified name unless it stays on its own. -/
structure Grown (links : List Link) (owned : List (Nat × String)) : Prop where
  earlier : ∀ n l, links[n]? = some l → ∀ id, l.parent = some id →
    ∃ m < n, ∃ up, EnclosingAt links m up ∧ up.id = id
  inside : ∀ member ∈ owned, member.1 < links.length
  segment : ∀ member ∈ owned, ¬Text.Mixed member.2
  types : ∀ n l, links[n]? = some l → l.kind = .type →
    l.parent = none ∧ n ∉ owned.map (·.1) ∨ Text.Mixed l.qualifiedName

section

variable {links : List Link} {owned : List (Nat × String)} {l : Link}

theorem Grown.empty : Grown [] [] where
  earlier _ _ held := absurd (List.mem_of_getElem? held) List.not_mem_nil
  inside _ listed := absurd listed List.not_mem_nil
  segment _ listed := absurd listed List.not_mem_nil
  types _ _ held := absurd (List.mem_of_getElem? held) List.not_mem_nil

theorem getElem?_snoc {n : Nat} {other : Link} (held : (links ++ [l])[n]? = some other) :
    links[n]? = some other ∨ n = links.length ∧ other = l := by
  rcases Nat.lt_or_ge n links.length with before | behind
  · exact .inl (List.getElem?_append_left before ▸ held)
  · rw [List.getElem?_append_right behind, List.getElem?_singleton] at held
    split at held
    · exact .inr ⟨by omega, (Option.some.inj held).symm⟩
    · cases held

theorem Grown.append (h : Grown links owned)
    (parent : ∀ id, l.parent = some id → ∃ n up, EnclosingAt links n up ∧ up.id = id)
    (type : l.kind = .type → l.parent = none ∨ Text.Mixed l.qualifiedName) :
    Grown (links ++ [l]) owned := by
  constructor
  case earlier =>
    intro n other held id known
    rcases getElem?_snoc held with before | ⟨rfl, rfl⟩
    · obtain ⟨m, earlier, up, enclosing, same⟩ := h.earlier n other before id known
      exact ⟨m, earlier, up, enclosing.append _, same⟩
    · obtain ⟨m, up, enclosing, same⟩ := parent id known
      exact ⟨m, (List.getElem?_eq_some_iff.mp enclosing.place).1, up, enclosing.append _, same⟩
  case inside =>
    intro member hm
    rw [List.length_append]
    exact Nat.lt_add_right _ (h.inside member hm)
  case segment => exact h.segment
  case types =>
    intro n other held kind
    rcases getElem?_snoc held with before | ⟨rfl, rfl⟩
    · exact h.types n other before kind
    · refine (type kind).imp_left fun none => ⟨none, fun listed => ?_⟩
      obtain ⟨member, hm, same⟩ := List.mem_map.mp listed
      exact absurd (h.inside member hm) (Nat.not_lt.mpr (Nat.le_of_eq same.symm))

/-- A member is to be attached, whose qualified name is mixed if it is a type. -/
theorem Grown.own (h : Grown links owned) {n : Nat} {owner : String} (held : links[n]? = some l)
    (segment : ¬Text.Mixed owner) (type : l.kind = .type → Text.Mixed l.qualifiedName) :
    Grown links (owned ++ [(n, owner)]) := by
  constructor
  case earlier => exact h.earlier
  case inside =>
    intro member hm
    rcases List.mem_append.mp hm with before | here
    · exact h.inside member before
    · rw [List.mem_singleton.mp here]
      exact (List.getElem?_eq_some_iff.mp held).1
  case segment =>
    intro member hm
    rcases List.mem_append.mp hm with before | here
    · exact h.segment member before
    · rw [List.mem_singleton.mp here]
      exact segment
  case types =>
    intro m other heldToo kind
    rcases h.types m other heldToo kind with ⟨root, free⟩ | mixed
    · by_cases same : m = n
      · subst same
        obtain rfl : other = l := Option.some.inj (heldToo.symm.trans held)
        exact .inr (type kind)
      · refine .inl ⟨root, fun listed => ?_⟩
        rw [List.map_append] at listed
        rcases List.mem_append.mp listed with before | here
        · exact free before
        · exact same (List.mem_singleton.mp here)
    · exact .inr mixed

end

/-- The links of what was found. -/
def Found.links (f : Found) : List Link :=
  f.symbols.map Symbol.link

namespace Found

theorem relate_links (f : Found) (number : Nat) (r : Relation) :
    (f.relate number r).links = f.links := by
  refine map_modify f.symbols number fun s => ?_
  split
  · rfl
  · rfl

theorem emit_links (f : Found) (i : Input) (n : Node) (kind : SymbolKind)
    (name qualifiedName : String) (parent : Option SymbolId) (relations : List Relation)
    (shape : Option Shape) : ∃ id,
    (f.emit i n kind name qualifiedName parent relations shape).links =
      f.links ++ [⟨id, kind, qualifiedName, parent⟩] :=
  ⟨_, List.map_append⟩

theorem enclosingId_eq (f : Found) (scopes : List Scope) :
    f.enclosingId scopes = (enclosing scopes).bind fun n => (f.links[n]?).map (·.id) := by
  unfold enclosingId links
  congr 1
  funext n
  rw [List.getElem?_map, Option.map_map]
  rfl

/-- What was found keeps its links and its relations in order along a walk. -/
structure Growing (scopes : List Scope) (f : Found) : Prop where
  nested : Nested f.links scopes
  grown : Grown f.links f.owned
  loose : ∀ s ∈ f.symbols, Loose s.relations

variable {scopes : List Scope} {f : Found} {i : Input}

theorem relate_loose (loose : ∀ s ∈ f.symbols, Loose s.relations) (number : Nat)
    (kind : RelationKind) (name : String) :
    ∀ s ∈ (f.relate number ⟨kind, .unresolved name⟩).symbols, Loose s.relations := by
  refine forall_mem_modify loose number fun s loose => ?_
  split
  · exact loose
  · exact List.forall_mem_append.mpr ⟨loose, loose_single kind name⟩

theorem Growing.relate (h : Growing scopes f) (number : Nat) (kind : RelationKind) (name : String) :
    Growing scopes (f.relate number ⟨kind, .unresolved name⟩) := by
  have links := f.relate_links number ⟨kind, .unresolved name⟩
  exact ⟨links ▸ h.nested, links ▸ h.grown, relate_loose h.loose number kind name⟩

/-- A symbol comes under the definition around it. -/
theorem Growing.emit (h : Growing scopes f) (n : Node) {kind : SymbolKind}
    (name : String) {qualifiedName : String} {relations : List Relation} (loose : Loose relations)
    (shape : Option Shape)
    (type : kind = .type → enclosing scopes = none ∨ Text.Mixed qualifiedName) :
    Growing scopes
      (f.emit i n kind name qualifiedName (f.enclosingId scopes) relations shape) := by
  obtain ⟨id, links⟩ :=
    f.emit_links i n kind name qualifiedName (f.enclosingId scopes) relations shape
  refine ⟨links ▸ h.nested.append _, links ▸ h.grown.append ?_ ?_, ?_⟩
  · intro id known
    rw [enclosingId_eq] at known
    obtain ⟨m, around, held⟩ := Option.bind_eq_some_iff.mp known
    obtain ⟨up, enclosing⟩ := h.nested.enclosing around
    rw [enclosing.place] at held
    exact ⟨m, up, enclosing, Option.some.inj held⟩
  · intro isType
    refine (type isType).imp_left fun none => ?_
    rw [enclosingId_eq, none]
    rfl
  · exact List.forall_mem_append.mpr ⟨h.loose, List.forall_mem_singleton.mpr loose⟩

theorem Growing.emit_untyped (h : Growing scopes f) (n : Node) {kind : SymbolKind}
    (name : String) {qualifiedName : String} {relations : List Relation} (loose : Loose relations)
    (shape : Option Shape) (untyped : kind ≠ .type) :
    Growing scopes
      (f.emit i n kind name qualifiedName (f.enclosingId scopes) relations shape) :=
  h.emit n name loose shape fun isType => absurd isType untyped

theorem Growing.call (h : Growing scopes f) (n : Node) (callee : String) :
    Growing scopes (f.call i scopes n callee) := by
  simp only [Found.call]
  split
  · rename_i number _
    have same : f.enclosingId scopes =
        (f.relate number ⟨.calls, .unresolved callee⟩).enclosingId scopes := by
      rw [enclosingId_eq, enclosingId_eq, relate_links]
    rw [same]
    exact (h.relate number .calls callee).emit_untyped n callee (loose_single _ _) none (by decide)
  · exact h.emit_untyped n callee (loose_single _ _) none (by decide)

theorem Growing.imports (h : Growing scopes f) (n : Node) (targets : List String) :
    Growing scopes (targets.foldl (fun f target => f.importTarget i scopes n target) f) :=
  List.foldlRecOn (motive := Growing scopes) targets _ h fun _ before _ _ =>
    before.emit_untyped n _ (loose_single _ _) none (by decide)

end Found

/-- A node has neat attributes, and if it gives a type, a name with more than separators. -/
structure Tidy (n : Node) : Prop where
  neat : n.attributes.Neat
  letter : symbolKind? n = some .type → ∀ name, n.name? = some name → Text.HasLetter name

section

variable {scopes : List Scope} {f : Found} {i : Input} {t : Ast} {kind : SymbolKind} {name : String}

/-- The symbol of a definition, under a qualified name. -/
def Found.defined (f : Found) (i : Input) (scopes : List Scope) (t : Ast) (kind : SymbolKind)
    (name qualifiedName : String) : Found :=
  f.emit i t.data kind name qualifiedName (f.enclosingId scopes)
    ((t.data.attributes.list .bases).map fun base => ⟨.inherits, .unresolved base⟩)
    (some (Shape.ofAst t i.selfNames))

/-- How a definition is named, and to which type it is to be attached. -/
inductive Naming (f : Found) (i : Input) (scopes : List Scope) (t : Ast) (kind : SymbolKind)
    (name : String) : Found × String → Prop where
  | free {qualifiedName : String} (filled : qualifiedName ≠ "")
      (type : enclosing scopes = none ∨ (Text.HasLetter name → Text.Mixed qualifiedName)) :
      Naming f i scopes t kind name (f.defined i scopes t kind name qualifiedName, qualifiedName)
  | owned {qualifiedName owner : String} (filled : qualifiedName ≠ "")
      (type : Text.HasLetter name → Text.Mixed qualifiedName) (segment : ¬Text.Mixed owner) :
      Naming f i scopes t kind name
        ({ f.defined i scopes t kind name qualifiedName with
            owned := f.owned ++ [(f.symbols.length, owner)] }, qualifiedName)

theorem under_filled (qualifier name : String) : s!"{qualifier}::{name}" ≠ "" := by
  intro empty
  rw [String.append_eq_empty_iff, String.append_eq_empty_iff] at empty
  exact absurd empty.1.2 (by decide)

theorem qualifyOwned_inner {links : List Link} (inner : Inner links (innermost scopes))
    (owner : Option String) (name : String) :
    qualifyOwned scopes owner name = s!"{(innermost scopes).qualifier}::{name}" := by
  unfold qualifyOwned
  split
  · rename_i file
    exact absurd file inner.kind
  · rw [qualify, if_neg (by simpa using inner.qualifier)]

theorem define_naming (nested : Nested f.links scopes) (neat : t.data.attributes.Neat)
    (named : t.data.name? = some name) :
    Naming f i scopes t kind name (f.define i scopes t kind name) := by
  have filled : name ≠ "" := neat.filled .name name named
  simp only [Found.define]
  rcases nested.innermost with ⟨file, none⟩ | inner
  · simp only [qualifyOwned, file, none, Option.or_none]
    cases written : t.data.attributes.get? .owner with
    | none =>
        have plain : qualify scopes name = name := by simp [qualify, file]
        simp only [plain]
        exact .free filled (.inl none)
    | some owner =>
        exact .owned (under_filled owner name) (Text.mixed_under owner)
          (neat.segment .owner owner written (.inr rfl))
  · rw [qualifyOwned_inner inner]
    have filled := under_filled (innermost scopes).qualifier name
    have mixed : Text.HasLetter name → Text.Mixed s!"{(innermost scopes).qualifier}::{name}" :=
      Text.mixed_under _
    split
    · rename_i owner belongs _
      refine .owned filled mixed ?_
      rcases Option.or_eq_some_iff.mp belongs with written | ⟨-, around⟩
      · exact neat.segment .owner owner written (.inr rfl)
      · exact inner.owner owner around
    · exact .free filled (.inr mixed)

theorem Found.defined_link (f : Found) (i : Input) (scopes : List Scope) (t : Ast)
    (kind : SymbolKind) (name qualifiedName : String) : ∃ l : Link, l.kind = kind ∧
    l.qualifiedName = qualifiedName ∧
    (f.defined i scopes t kind name qualifiedName).links = f.links ++ [l] := by
  obtain ⟨id, links⟩ := f.emit_links i t.data kind name qualifiedName (f.enclosingId scopes)
    ((t.data.attributes.list .bases).map fun base => ⟨.inherits, .unresolved base⟩)
    (some (Shape.ofAst t i.selfNames))
  exact ⟨_, rfl, rfl, links⟩

open Found (Growing)

/-- A definition is found in order, and so is the scope that it opens. -/
theorem define_growing (h : Growing scopes f) (tidy : Tidy t.data)
    (gives : symbolKind? t.data = some kind) (encloses : kind.Encloses)
    (named : t.data.name? = some name) {scopeKind : ScopeKind} (below : scopeKind ≠ .file) :
    Growing ({ kind := scopeKind, qualifier := (f.define i scopes t kind name).2,
               symbol := some f.symbols.length } :: scopes) (f.define i scopes t kind name).1 := by
  have letter (isType : kind = .type) : Text.HasLetter name :=
    tidy.letter (isType ▸ gives) name named
  -- the definition, without the owner that it may have
  have alone {qualifiedName : String} (filled : qualifiedName ≠ "")
      (type : enclosing scopes = none ∨ (Text.HasLetter name → Text.Mixed qualifiedName)) :
      Growing ({ kind := scopeKind, qualifier := qualifiedName,
                 symbol := some f.symbols.length } :: scopes)
        (f.defined i scopes t kind name qualifiedName) := by
    have grown : Growing scopes (f.defined i scopes t kind name qualifiedName) :=
      h.emit t.data name (bases_loose t) _ fun isType => type.imp_right (· (letter isType))
    obtain ⟨l, known, -, links⟩ := f.defined_link i scopes t kind name qualifiedName
    refine ⟨.inner ⟨below, filled, nofun, fun n opened => ?_⟩ grown.nested, grown.grown,
      grown.loose⟩
    obtain rfl : f.symbols.length = n := Option.some.inj opened
    exact ⟨l, links ▸ by simp [Found.links], known ▸ encloses⟩
  have naming : Naming f i scopes t kind name (f.define i scopes t kind name) :=
    define_naming h.nested tidy.neat named
  generalize f.define i scopes t kind name = found at naming ⊢
  cases naming with
  | free filled type => exact alone filled type
  | @owned qualifiedName owner filled type segment =>
      obtain ⟨nested, grown, loose⟩ := alone filled (.inr type)
      obtain ⟨l, known, called, links⟩ := f.defined_link i scopes t kind name qualifiedName
      have held :
          (f.defined i scopes t kind name qualifiedName).links[f.symbols.length]? = some l :=
        links ▸ by simp [Found.links]
      refine ⟨nested, grown.own held segment fun isType => ?_, loose⟩
      exact called ▸ type (letter (known ▸ isType))

theorem visit_growing (h : Growing scopes f) (tidy : Tidy t.data) :
    Growing ((visit i scopes t f).scope.toList ++ scopes) (visit i scopes t f).found := by
  cases gives : symbolKind? t.data with
  | none =>
      simp only [visit, gives]
      split
      · rename_i owner written
        refine ⟨.inner ⟨fun isFile => ScopeKind.noConfusion isFile,
          tidy.neat.filled .scope owner written, ?_, ?_⟩ h.nested, h.grown, h.loose⟩
        · intro other same
          cases same
          exact tidy.neat.segment .scope owner written (.inl rfl)
        · intro n opened
          cases opened
      · exact h
  | some kind =>
      cases kind with
      | importing =>
          simp only [visit, gives]
          exact h.imports t.data _
      | call =>
          simp only [visit, gives]
          split
          · exact h.call t.data _
          · exact h
      | var =>
          simp only [visit, gives]
          split
          · split
            · exact h
            · exact h.emit_untyped t.data _ (fun r hr => absurd hr List.not_mem_nil) none (by decide)
          · exact h
      | function | type =>
          simp only [visit, gives]
          split
          · rename_i named
            exact define_growing h tidy gives (by simp [SymbolKind.Encloses]) named (by decide)
          · exact h

end

/-! ## The walk -/

theorem ofAst_growing (i : Input) {t : Ast} (tidy : ∀ n ∈ t.preorder, Tidy n) :
    ∃ scopes, Found.Growing scopes (ofAst i t) := by
  have below (step : Step) (hs : step ∈ t.children.map Step.enter) : step.Over Tidy :=
    over_below tidy true hs
  have start : Found.Growing [{ kind := .file }] {} :=
    ⟨.file, .empty, fun s none => absurd none List.not_mem_nil⟩
  refine walk_keeps (P := fun f => ∃ scopes, Found.Growing scopes f) (fun scopes _ h => ⟨scopes, h⟩)
    (fun scopes f h => ?_) (fun scopes f t => ?_) below start
  · exact ⟨h.nested.tail, h.grown, h.loose⟩
  · exact fun tidy h => visit_growing h tidy

/-! ## Attached members -/

/-- A type is named as the owner of what stands at a place. -/
structure OwnerOf (links : List Link) (owned : List (Nat × String)) (n m : Nat) (type : Link) :
    Prop where
  listed : (n, type.qualifiedName) ∈ owned
  place : links[m]? = some type
  kind : type.kind = .type

/-- What attaching the members makes of a link: it may get its owner as its parent. -/
structure Rehung (links : List Link) (owned : List (Nat × String)) (n : Nat) (l after : Link) :
    Prop where
  id : after.id = l.id
  kind : after.kind = l.kind
  parent : after.parent = l.parent ∨
    ∃ m type, OwnerOf links owned n m type ∧ after.parent = some type.id

theorem typeNamed?_spec {f : Found} {owner : String} {m : Nat}
    (named : f.typeNamed? owner = some m) :
    ∃ s, f.symbols[m]? = some s ∧ s.kind = .type ∧ s.qualifiedName = owner := by
  obtain ⟨⟨s, m⟩, found, rfl⟩ := Option.map_eq_some_iff.mp named
  obtain ⟨listed, kind⟩ := List.mem_filter.mp (List.mem_of_find?_eq_some found)
  have called := List.find?_some found
  exact ⟨s, List.mem_zipIdx_iff_getElem?.mp listed, by simpa using kind, by simpa using called⟩

/-- The links after some members were attached. -/
structure Attached (f : Found) (symbols : List Symbol) : Prop where
  places : symbols.length = f.symbols.length
  rehung : ∀ n l s, f.links[n]? = some l → symbols[n]? = some s →
    Rehung f.links f.owned n l s.link

theorem Attached.adopt {f : Found} {symbols : List Symbol} (h : Attached f symbols)
    {member : Nat × String} (listed : member ∈ f.owned) : Attached f (f.adopt symbols member) := by
  obtain ⟨number, owner⟩ := member
  unfold Found.adopt
  split
  · rename_i type found
    obtain ⟨m, named, held⟩ := Option.bind_eq_some_iff.mp found
    obtain ⟨s, same, kind, rfl⟩ := typeNamed?_spec named
    obtain rfl : s = type := Option.some.inj (same.symm.trans held)
    have place : f.links[m]? = some s.link := by rw [Found.links, List.getElem?_map, held]; rfl
    refine ⟨(List.length_modify ..).trans h.places, fun n l after before changed => ?_⟩
    rw [List.getElem?_modify, Option.map_eq_map, Option.map_eq_some_iff] at changed
    obtain ⟨t, ht, rfl⟩ := changed
    have rehung := h.rehung n l t before ht
    split
    · rename_i here
      exact ⟨rehung.id, rehung.kind, .inr ⟨m, s.link, ⟨here ▸ listed, place, kind⟩, rfl⟩⟩
    · exact rehung
  · exact h

theorem adopted_attached (f : Found) : Attached f (f.owned.foldl f.adopt f.symbols) := by
  refine List.foldlRecOn (motive := Attached f) f.owned f.adopt ⟨rfl, fun n l s before here => ?_⟩
    fun symbols attached member listed => attached.adopt listed
  rw [Found.links, List.getElem?_map, here] at before
  cases before
  exact ⟨rfl, rfl, .inl rfl⟩

theorem attach_links (f : Found) :
    (attach f).map Symbol.link = (f.owned.foldl f.adopt f.symbols).map Symbol.link := by
  refine List.foldlRecOn (motive := fun g : Found => g.symbols.map Symbol.link = _) f.bases f.derive
    rfl fun g same base _ => ?_
  unfold Found.derive
  split
  · exact (g.relate_links _ _).trans same
  · exact same

theorem attach_loose {f : Found} (loose : ∀ s ∈ f.symbols, Loose s.relations) :
    ∀ s ∈ attach f, Loose s.relations := by
  have adopted : ∀ s ∈ f.owned.foldl f.adopt f.symbols, Loose s.relations := by
    refine List.foldlRecOn (motive := fun symbols : List Symbol => ∀ s ∈ symbols, Loose s.relations)
      f.owned f.adopt loose fun symbols loose member _ => ?_
    unfold Found.adopt
    split
    · exact forall_mem_modify loose _ fun _ kept => kept
    · exact loose
  refine List.foldlRecOn (motive := fun g : Found => ∀ s ∈ g.symbols, Loose s.relations)
    f.bases f.derive adopted fun g loose base _ => ?_
  unfold Found.derive
  split
  · exact Found.relate_loose loose _ _ _
  · exact loose

/-! ## Parents -/

/-- The parent of what stands at a place encloses other symbols, and comes before or has no parent
    itself. -/
def Tied (links : List Link) : Prop :=
  ∀ n l, links[n]? = some l → ∀ id, l.parent = some id →
    ∃ m up, EnclosingAt links m up ∧ up.id = id ∧ (m < n ∨ up.parent = none)

theorem attach_tied {f : Found} (grown : Grown f.links f.owned) :
    Tied ((attach f).map Symbol.link) := by
  rw [attach_links]
  have attached := adopted_attached f
  generalize f.owned.foldl f.adopt f.symbols = symbols at attached ⊢
  have after {n : Nat} {l : Link} (held : f.links[n]? = some l) : ∃ now,
      (symbols.map Symbol.link)[n]? = some now ∧ Rehung f.links f.owned n l now := by
    have inside : n < symbols.length := by
      have before := (List.getElem?_eq_some_iff.mp held).1
      rw [Found.links, List.length_map] at before
      exact attached.places.symm ▸ before
    exact ⟨symbols[n].link, by simp [inside],
      attached.rehung n l _ held (List.getElem?_eq_getElem inside)⟩
  intro n now here id parent
  obtain ⟨l, held⟩ : ∃ l, f.links[n]? = some l := by
    have inside := (List.getElem?_eq_some_iff.mp here).1
    rw [List.length_map, attached.places, ← List.length_map Symbol.link] at inside
    exact ⟨_, List.getElem?_eq_getElem inside⟩
  obtain ⟨now', here', rehung⟩ := after held
  obtain rfl : now' = now := Option.some.inj (here'.symm.trans here)
  rcases rehung.parent with same | ⟨m, type, owner, given⟩
  · -- the definition around it, which comes before
    obtain ⟨m, earlier, up, enclosing, called⟩ := grown.earlier n l held id (same ▸ parent)
    obtain ⟨upNow, place, rehung⟩ := after enclosing.place
    exact ⟨m, upNow, ⟨place, rehung.kind ▸ enclosing.kind⟩, rehung.id.trans called, .inl earlier⟩
  · -- its owner, which no one owns
    obtain ⟨typeNow, place, rehung⟩ := after owner.place
    have called : type.id = id := Option.some.inj (given.symm.trans parent)
    refine ⟨m, typeNow, ⟨place, rehung.kind ▸ .inl owner.kind⟩, rehung.id.trans called, .inr ?_⟩
    rcases grown.types m type owner.place owner.kind with ⟨root, free⟩ | mixed
    · rcases rehung.parent with same | ⟨_, _, owned, -⟩
      · exact same.trans root
      · exact absurd (List.mem_map_of_mem owned.listed) free
    · exact absurd mixed (grown.segment _ owner.listed)

theorem resolveAll_links (symbols : List Symbol) :
    (resolveAll symbols).map Symbol.link = symbols.map Symbol.link := by
  simp only [resolveAll, List.map_map]
  rfl

end Extract

/-! ## The symbols of a source -/

/-- One symbol is the parent of another one. -/
structure ParentIn (symbols : List Symbol) (up s : Symbol) : Prop where
  upper : up ∈ symbols
  lower : s ∈ symbols
  parent : s.parent = some up.id

open Extract

/-- From parent to parent, the way comes to an end. -/
theorem Extract.Tied.wellFounded {symbols : List Symbol} (tied : Tied (symbols.map Symbol.link))
    (distinct : (symbols.map (·.id)).Nodup) : WellFounded (ParentIn symbols) := by
  have root {s : Symbol} (none : s.parent = none) : Acc (ParentIn symbols) s :=
    .intro s fun up h => by cases none.symm.trans h.parent
  -- by the place: a parent comes before, or has none itself
  have placed (n : Nat) : ∀ s, symbols[n]? = some s → Acc (ParentIn symbols) s := by
    induction n using Nat.strongRecOn with
    | ind n ih =>
        intro s held
        refine .intro s fun up h => ?_
        obtain ⟨m, link, enclosing, same, place⟩ :=
          tied n s.link (by rw [List.getElem?_map, held]; rfl) up.id h.parent
        have placed := enclosing.place
        rw [List.getElem?_map, Option.map_eq_some_iff] at placed
        obtain ⟨t, ht, rfl⟩ := placed
        obtain rfl : t = up :=
          List.inj_on_of_nodup_map distinct (List.mem_of_getElem? ht) h.upper same
        rcases place with earlier | none
        · exact ih m earlier t ht
        · exact root none
  refine ⟨fun s => .intro s fun up h => ?_⟩
  obtain ⟨n, held⟩ := List.mem_iff_getElem?.mp h.upper
  exact placed n up held

/-- An id is that of a function or type among some symbols. -/
def EnclosesIn (symbols : List Symbol) (id : SymbolId) : Prop :=
  ∃ s ∈ symbols, s.kind.Encloses ∧ s.id = id

/-- The symbols hang together as the trees of a forest, and what they refer to is among them. -/
structure Forest (symbols : List Symbol) : Prop where
  distinct : (symbols.map (·.id)).Nodup
  parents : ∀ s ∈ symbols, ∀ id, s.parent = some id → EnclosesIn symbols id
  ends : WellFounded (ParentIn symbols)
  targets : ∀ s ∈ symbols, ∀ r ∈ s.relations, ∀ id, r.target = .resolved id → EnclosesIn symbols id

/-- The seeds of the symbols that a parsed source has. -/
def Syntax.Parsed.seeds (p : Parsed) (unit : SourceUnit) (snippetChars : Nat) : List Seed :=
  (p.symbols unit snippetChars).zipIdx.map fun (s, n) =>
    seedAt unit.path (p.symbols unit snippetChars) n s

theorem Syntax.Parsed.symbols_forest {p : Parsed} (unit : SourceUnit) (snippetChars : Nat)
    (tidy : ∀ n ∈ p.ast.preorder, Tidy n) (apart : Seed.Apart (p.seeds unit snippetChars)) :
    Forest (p.symbols unit snippetChars) := by
  have distinct : ((p.symbols unit snippetChars).map (·.id)).Nodup := by
    refine (p.symbols_walked unit snippetChars).ids_nodup apart fun n inside => ?_
    have placed : ((p.symbols unit snippetChars)[n], n) ∈ (p.symbols unit snippetChars).zipIdx :=
      List.mem_zipIdx_iff_getElem?.mpr (List.getElem?_eq_getElem inside)
    exact List.mem_map.mpr ⟨_, placed, rfl⟩
  obtain ⟨scopes, growing⟩ := ofAst_growing (p.input unit snippetChars) tidy
  have tied : Tied ((p.symbols unit snippetChars).map Symbol.link) :=
    resolveAll_links (attach _) ▸ attach_tied growing.grown
  have loose := attach_loose growing.loose
  constructor
  case distinct => exact distinct
  case ends => exact tied.wellFounded distinct
  case parents =>
    intro s hs id parent
    obtain ⟨n, held⟩ := List.mem_iff_getElem?.mp hs
    obtain ⟨m, up, enclosing, called, -⟩ :=
      tied n s.link (by rw [List.getElem?_map, held]; rfl) id parent
    obtain ⟨t, ht, rfl⟩ := List.mem_map.mp (List.mem_of_getElem? enclosing.place)
    exact ⟨t, ht, enclosing.kind, called⟩
  case targets =>
    intro s hs r hr id target
    obtain ⟨t, ht, rfl⟩ := List.mem_map.mp hs
    obtain ⟨written, listed, rfl⟩ := List.mem_map.mp hr
    obtain ⟨name, unresolved⟩ := loose t ht written listed
    obtain ⟨found, hFound, kind, called⟩ := resolve_encloses unresolved target
    exact ⟨_, List.mem_map_of_mem hFound, kind, called⟩

/-- A method in Rust that comes before its type. -/
def earlyMethod : Source :=
  let token (kind : String) (first last : Nat) : Concrete :=
    .node { kind, named := false, span := ⟨first, last, 1, 1⟩ } []
  let node (kind : String) (first last : Nat) (children : List Concrete) : Concrete :=
    .node { kind, span := ⟨first, last, 1, 1⟩ } children
  let part (field kind : String) (first last : Nat) (children : List Concrete) : Concrete :=
    .node { kind, field := some field, span := ⟨first, last, 1, 1⟩ } children
  let method := node "function_item" 7 15
    [token "fn" 7 9, part "name" "identifier" 10 11 [],
      part "parameters" "parameters" 11 13 [token "(" 11 12, token ")" 12 13],
      part "body" "block" 13 15 [token "\x7b" 13 14, token "\x7d" 14 15]]
  let block := node "impl_item" 0 16
    [token "impl" 0 4, part "type" "type_identifier" 5 6 [],
      part "body" "declaration_list" 6 16 [token "\x7b" 6 7, method, token "\x7d" 15 16]]
  let type := node "struct_item" 16 25
    [token "struct" 16 22, part "name" "type_identifier" 23 24 [], token ";" 24 25]
  { text := "impl A\x7bfn f()\x7b\x7d\x7dstruct A;"
    trees := [(.rust, node "source_file" 0 25 [block, type])] }

def earlyUnit : SourceUnit :=
  { path := "a.rs", language := .rust, contentHash := "", version := 1, modifiedAt := default
    author := none }

/-- The parent of the method comes behind it. -/
example : ((Parsed.ofSource earlyMethod .rust "").symbols earlyUnit 2000).map
    (fun s => (s.name, s.parent.isSome)) = [("f", true), ("A", false)] := by decide +kernel

end CodeSearch
