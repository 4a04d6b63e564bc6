import CodeSearch.Proofs.Symbol.Extraction

/-! # What extracted symbols mention

The parent of an extracted symbol, and every symbol that its relations point at, is extracted from
the same source.
-/

namespace CodeSearch

open Syntax

/-- Every symbol that `s` mentions has one of some ids. -/
structure Symbol.Within (ids : List SymbolId) (s : Symbol) : Prop where
  parent : ∀ id, s.parent = some id → id ∈ ids
  targets : ∀ r ∈ s.relations, ∀ id, r.target = .resolved id → id ∈ ids

theorem Symbol.Within.mono {few many : List SymbolId} {s : Symbol} (h : s.Within few)
    (more : few ⊆ many) : s.Within many :=
  ⟨fun id known => more (h.parent id known), fun r hr id known => more (h.targets r hr id known)⟩

/-- Functions and types enclose other symbols. -/
def SymbolKind.Encloses (k : SymbolKind) : Prop :=
  k = .type ∨ k = .function

namespace Extract

/-- The symbols mention each other only. -/
def Closed (symbols : List Symbol) : Prop :=
  ∀ s ∈ symbols, s.Within (symbols.map (·.id))

theorem ids_of_bare {symbols changed : List Symbol}
    (same : changed.map Symbol.bare = symbols.map Symbol.bare) :
    changed.map (·.id) = symbols.map (·.id) := by
  have ids (l : List Symbol) : l.map (·.id) = (l.map Symbol.bare).map (·.id) := by
    rw [List.map_map]
    rfl
  rw [ids changed, ids symbols, same]

theorem Closed.append {symbols : List Symbol} (h : Closed symbols) {s : Symbol}
    (last : s.Within (symbols.map (·.id))) : Closed (symbols ++ [s]) := by
  have more : symbols.map (·.id) ⊆ (symbols ++ [s]).map (·.id) := by
    rw [List.map_append]
    exact List.subset_append_left _ _
  intro t ht
  rcases List.mem_append.mp ht with before | here
  · exact (h t before).mono more
  · exact List.mem_singleton.mp here ▸ last.mono more

/-- Changing one symbol keeps the symbols closed when the change keeps all ids and adds no mention
    of another symbol. -/
theorem Closed.modify {symbols : List Symbol} (h : Closed symbols) (number : Nat)
    {change : Symbol → Symbol} (keeps : ∀ s, (change s).bare = s.bare)
    (within : ∀ s, s.Within (symbols.map (·.id)) → (change s).Within (symbols.map (·.id))) :
    Closed (symbols.modify number change) := by
  rw [Closed, ids_of_bare (map_modify symbols number keeps)]
  exact forall_mem_modify h number within

/-- No relation points at a symbol yet. -/
def Loose (relations : List Relation) : Prop :=
  ∀ r ∈ relations, ∃ name, r.target = .unresolved name

theorem loose_single (kind : RelationKind) (name : String) : Loose [⟨kind, .unresolved name⟩] :=
  List.forall_mem_singleton.mpr ⟨name, rfl⟩

theorem bases_loose (t : Ast) : Loose ((t.data.attributes.list .bases).map fun base =>
    (⟨.inherits, .unresolved base⟩ : Relation)) := by
  intro r hr
  obtain ⟨base, -, rfl⟩ := List.mem_map.mp hr
  exact ⟨base, rfl⟩

namespace Found

theorem enclosingId_mem {f : Found} {scopes : List Scope} {id : SymbolId}
    (h : f.enclosingId scopes = some id) : id ∈ f.symbols.map (·.id) := by
  obtain ⟨n, -, known⟩ := Option.bind_eq_some_iff.mp h
  obtain ⟨s, listed, rfl⟩ := Option.map_eq_some_iff.mp known
  exact List.mem_map.mpr ⟨s, List.mem_of_getElem? listed, rfl⟩

theorem relate_closed {f : Found} (h : Closed f.symbols) (number : Nat) (kind : RelationKind)
    (name : String) : Closed (f.relate number ⟨kind, .unresolved name⟩).symbols := by
  refine h.modify number (fun s => ?_) fun s within => ?_
  · split
    · rfl
    · rfl
  · split
    · exact within
    · refine ⟨within.parent, fun r hr id known => ?_⟩
      rcases List.mem_append.mp hr with before | here
      · exact within.targets r before id known
      · rw [List.mem_singleton.mp here] at known
        cases known

theorem emit_closed {f : Found} (h : Closed f.symbols) (i : Input) (n : Node) (kind : SymbolKind)
    (name qualifiedName : String) {parent : Option SymbolId} {relations : List Relation}
    (shape : Option Shape) (known : ∀ id, parent = some id → id ∈ f.symbols.map (·.id))
    (loose : Loose relations) :
    Closed (f.emit i n kind name qualifiedName parent relations shape).symbols := by
  refine h.append ⟨known, fun r hr id target => ?_⟩
  obtain ⟨name, unresolved⟩ := loose r hr
  rw [unresolved] at target
  cases target

theorem define_closed {f : Found} (h : Closed f.symbols) (i : Input) (scopes : List Scope) (t : Ast)
    (kind : SymbolKind) (name : String) : Closed (f.define i scopes t kind name).1.symbols := by
  simp only [define]
  split
  · exact emit_closed h _ _ _ _ _ _ (fun _ => enclosingId_mem) (bases_loose t)
  · exact emit_closed h _ _ _ _ _ _ (fun _ => enclosingId_mem) (bases_loose t)

theorem call_closed {f : Found} (h : Closed f.symbols) (i : Input) (scopes : List Scope) (n : Node)
    (callee : String) : Closed (f.call i scopes n callee).symbols := by
  simp only [call]
  split
  · rename_i number _
    refine emit_closed (relate_closed h number .calls callee) _ _ _ _ _ _ (fun id known => ?_)
      (loose_single _ _)
    rw [ids_of_bare (relate_bare f number _)]
    exact enclosingId_mem known
  · exact emit_closed h _ _ _ _ _ _ (fun _ => enclosingId_mem) (loose_single _ _)

theorem imports_closed {f : Found} (h : Closed f.symbols) (i : Input) (scopes : List Scope) (n : Node)
    (targets : List String) :
    Closed (targets.foldl (fun f x => f.importTarget i scopes n x) f).symbols := by
  induction targets generalizing f with
  | nil => exact h
  | cons target rest ih =>
      exact ih (emit_closed h _ _ _ _ _ _ (fun _ => enclosingId_mem) (loose_single _ _))

end Found

theorem visit_closed {f : Found} (h : Closed f.symbols) (i : Input) (scopes : List Scope) (t : Ast) :
    Closed (visit i scopes t f).found.symbols := by
  cases hk : symbolKind? t.data with
  | none =>
      simp only [visit, hk]
      split
      · exact h
      · exact h
  | some kind =>
      cases kind with
      | importing =>
          simp only [visit, hk]
          exact Found.imports_closed h i scopes _ _
      | call =>
          simp only [visit, hk]
          split
          · exact Found.call_closed h i scopes _ _
          · exact h
      | var =>
          simp only [visit, hk]
          split
          · split
            · exact h
            · exact Found.emit_closed h _ _ _ _ _ _ (fun _ => Found.enclosingId_mem)
                fun r hr => absurd hr List.not_mem_nil
          · exact h
      | function | type =>
          simp only [visit, hk]
          split
          · exact Found.define_closed h i scopes t _ _
          · exact h

theorem walk_closed {i : Input} {steps : List Step} {scopes : List Scope} {f : Found}
    (h : Closed f.symbols) : Closed (walk i steps scopes f).symbols := by
  fun_induction walk i steps scopes f with
  | case1 => exact h
  | case2 scopes f rest ih => exact ih h
  | case3 scopes f t rest v below noScope ih => exact ih (visit_closed h i scopes t)
  | case4 scopes f t rest v below scope hasScope ih => exact ih (visit_closed h i scopes t)

/-! ## After the walk -/

theorem attach_closed {f : Found} (h : Closed f.symbols) : Closed (attach f) := by
  have adopted : Closed (f.owned.foldl f.adopt f.symbols) ∧
      (f.owned.foldl f.adopt f.symbols).map Symbol.bare = f.symbols.map Symbol.bare := by
    refine List.foldlRecOn (motive := fun symbols : List Symbol =>
      Closed symbols ∧ symbols.map Symbol.bare = f.symbols.map Symbol.bare) _ _ ⟨h, rfl⟩ ?_
    rintro symbols ⟨closed, same⟩ member -
    refine ⟨?_, (f.adopt_bare symbols member).trans same⟩
    unfold Found.adopt
    split
    · rename_i type known
      obtain ⟨n, -, listed⟩ := Option.bind_eq_some_iff.mp known
      refine closed.modify member.1 (fun _ => rfl) fun s within => ⟨fun id parent => ?_, within.targets⟩
      cases parent
      rw [ids_of_bare same]
      exact List.mem_map.mpr ⟨type, List.mem_of_getElem? listed, rfl⟩
    · exact closed
  unfold attach
  refine List.foldlRecOn (motive := fun g : Found => Closed g.symbols) _ _ adopted.1 ?_
  intro g closed base _
  unfold Found.derive
  split
  · exact Found.relate_closed closed _ _ _
  · exact closed

theorem firstNamed?_spec {symbols : List Symbol} {kind : SymbolKind} {name : String} {id : SymbolId}
    (h : firstNamed? symbols kind name = some id) : ∃ s ∈ symbols, s.kind = kind ∧ s.id = id := by
  obtain ⟨s, found, rfl⟩ := Option.map_eq_some_iff.mp h
  have named := List.find?_some found
  simp only [Bool.and_eq_true, beq_iff_eq] at named
  exact ⟨s, List.mem_of_find?_eq_some found, named.1, rfl⟩

/-- A name is looked up among functions and types. -/
theorem resolve_encloses {symbols : List Symbol} {r : Relation} {written : String} {id : SymbolId}
    (loose : r.target = .unresolved written) (h : (resolve symbols r).target = .resolved id) :
    ∃ s ∈ symbols, s.kind.Encloses ∧ s.id = id := by
  simp only [resolve, loose] at h
  split at h
  · rename_i found known
    cases h
    have named {kind : SymbolKind} (encloses : kind.Encloses)
        (found : firstNamed? symbols kind (Text.lastSegment written) = some id) :
        ∃ s ∈ symbols, s.kind.Encloses ∧ s.id = id := by
      obtain ⟨s, hs, rfl, same⟩ := firstNamed?_spec found
      exact ⟨s, hs, encloses, same⟩
    cases kind : r.kind with
    | calls =>
        rw [kind] at known
        rcases Option.or_eq_some_iff.mp known with function | ⟨-, type⟩
        · exact named (.inr rfl) function
        · exact named (.inl rfl) type
    | inherits =>
        rw [kind] at known
        exact named (.inl rfl) known
    | imports =>
        rw [kind] at known
        cases known
  · rw [loose] at h
    cases h

/-- A relation that is looked up points at one of the symbols that it is looked up among. -/
theorem resolve_mem {symbols : List Symbol} {r : Relation} {id : SymbolId}
    (h : (resolve symbols r).target = .resolved id) :
    r.target = .resolved id ∨ id ∈ symbols.map (·.id) := by
  cases target : r.target with
  | resolved known =>
      simp only [resolve, target] at h
      exact .inl h
  | unresolved written =>
      obtain ⟨s, hs, -, rfl⟩ := resolve_encloses target h
      exact .inr (List.mem_map_of_mem hs)

theorem resolveAll_closed {symbols : List Symbol} (h : Closed symbols) :
    Closed (resolveAll symbols) := by
  intro s hs
  rw [ids_of_bare (resolveAll_bare symbols)]
  obtain ⟨t, ht, rfl⟩ := List.mem_map.mp hs
  refine ⟨(h t ht).parent, fun r hr id target => ?_⟩
  obtain ⟨written, hWritten, rfl⟩ := List.mem_map.mp hr
  rcases resolve_mem target with before | found
  · exact (h t ht).targets written hWritten id before
  · exact found

end Extract

/-- The symbols of a parsed source mention each other only. -/
theorem Syntax.Parsed.symbols_closed (p : Parsed) (unit : SourceUnit) (snippetChars : Nat) :
    Extract.Closed (p.symbols unit snippetChars) :=
  Extract.resolveAll_closed (Extract.attach_closed
    (Extract.walk_closed fun _ h => absurd h List.not_mem_nil))

end CodeSearch
