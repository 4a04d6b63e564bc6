import CodeSearch.Proofs.Symbol.Resolution
import CodeSearch.Proofs.Syntax.Attributes

/-! # Symbols by the sites of a concrete tree

What an extraction lists is told here of the concrete tree, without the walk and without the
normalized tree: each named node below the root gives what it gives by itself, unless an import
stands above it, and the kind of the innermost scope is read off the nodes above. A grammar takes
part in this by a reading, which says of a concrete node alone whether it is an import and which
scope it opens.
-/

namespace CodeSearch

namespace Syntax

namespace Concrete

mutual

/-- The sites of the named nodes in the tree that stands at `position` under `ancestors`, in
    preorder. -/
def sitesAt (ancestors : List Concrete) (position : Nat) : Concrete → List Site
  | .node label children =>
    let t := Concrete.node label children
    ⟨t, position, ancestors⟩ :: sitesFrom (t :: ancestors) 0 children

/-- The sites in the named trees among those from `position` on. -/
def sitesFrom (ancestors : List Concrete) (position : Nat) : List Concrete → List Site
  | [] => []
  | t :: rest =>
    if t.label.named then
      sitesAt ancestors position t ++ sitesFrom ancestors (position + 1) rest
    else sitesFrom ancestors (position + 1) rest

end

/-- The sites of the named nodes below the root, in preorder. -/
def sites (t : Concrete) : List Site :=
  sitesFrom [t] 0 t.children

mutual

/-- The ancestors of a site go on with those under which its tree stands. -/
theorem ancestors_of_sitesAt {site : Site} (ancestors : List Concrete) (position : Nat)
    (t : Concrete) (inside : site ∈ sitesAt ancestors position t) :
    ancestors <:+ site.ancestors := by
  cases t with
  | node label children =>
      rw [sitesAt] at inside
      rcases List.mem_cons.mp inside with rfl | below
      · exact List.suffix_refl _
      · exact (List.suffix_cons ..).trans (ancestors_of_sitesFrom _ 0 children below)
termination_by sizeOf t

theorem ancestors_of_sitesFrom {site : Site} (ancestors : List Concrete) (position : Nat)
    (ts : List Concrete) (inside : site ∈ sitesFrom ancestors position ts) :
    ancestors <:+ site.ancestors := by
  cases ts with
  | nil => cases inside
  | cons t rest =>
      rw [sitesFrom] at inside
      split at inside
      · rcases List.mem_append.mp inside with first | later
        · exact ancestors_of_sitesAt ancestors position t first
        · exact ancestors_of_sitesFrom ancestors (position + 1) rest later
      · exact ancestors_of_sitesFrom ancestors (position + 1) rest inside
termination_by sizeOf ts

end

/-- Above every site there is the root. -/
theorem ancestors_ne_nil {t : Concrete} {site : Site} (inside : site ∈ t.sites) :
    site.ancestors ≠ [] := by
  intro none
  have root := ancestors_of_sitesFrom [t] 0 t.children inside
  rw [none] at root
  cases List.suffix_nil.mp root

end Concrete

/-- The nodes between a site and the root, nearest first. -/
def Site.above (s : Site) : List Concrete :=
  s.ancestors.dropLast

end Syntax

namespace Extract

open Syntax

/-! ## Nodes below the root -/

section

variable {g : Grammar} {source : String} {site : Site}

theorem nodeAt_below (placed : site.ancestors ≠ []) : Ast.nodeAt g source site =
    { kind := g.classify source site, raw := site.kind, span := site.node.label.span,
      attributes := Ast.attributesAt g source site (g.classify source site) } := by
  simp only [Ast.nodeAt, List.isEmpty_eq_false_iff.mpr placed]
  rfl

/-- Only the name can be another one than the grammar gives. -/
theorem get?_attributesAt {kind : NodeKind} {key : Attribute} (other : key ≠ .name) :
    (Ast.attributesAt g source site kind).get? key = (g.annotate source site kind).get? key := by
  simp only [Ast.attributesAt]
  split
  · split
    · rfl
    · rw [Attributes.get?_set, if_neg other]
  · split
    · rfl
    · rw [Attributes.get?_set, if_neg other]
  · rfl

theorem attributesAt_named {kind : NodeKind} (identifier : kind ≠ .identifier)
    (parameter : kind ≠ .parameter) :
    Ast.attributesAt g source site kind = g.annotate source site kind := by
  unfold Ast.attributesAt
  split
  · exact absurd rfl identifier
  · exact absurd rfl parameter
  · rfl

end

/-! ## What a node gives by itself -/

/-- The kind of the scope that a node opens. -/
def scopeKind? (n : Node) : Option ScopeKind :=
  match symbolKind? n with
  | some .function => n.name?.map fun _ => .function
  | some .type => n.name?.map fun _ => .type
  | some _ => none
  | none => (n.attributes.get? .scope).map fun _ => .members

theorem opened?_kind (scopes : List Scope) (number : Nat) (n : Node) :
    (opened? scopes number n).map (·.kind) = scopeKind? n := by
  unfold opened? scopeKind?
  cases symbolKind? n with
  | none => exact Option.map_map ..
  | some kind =>
      cases kind with
      | function | type => exact Option.map_map ..
      | importing | call | var => rfl

theorem isImport_eq (n : Node) : isImport n = (n.kind == .importing) := by
  unfold isImport symbolKind?
  cases n.kind with
  | assign =>
      dsimp only
      split
      · rfl
      · rfl
  | _ => rfl

/-- Only definitions give functions and types. -/
theorem symbolKind?_plain {n : Node} (plain : n.kind.isDefinition = false) :
    symbolKind? n ≠ some .function ∧ symbolKind? n ≠ some .type := by
  unfold symbolKind?
  cases kind : n.kind with
  | function | type | interface =>
      rw [kind] at plain
      cases plain
  | assign =>
      dsimp only
      split
      · exact ⟨nofun, nofun⟩
      · exact ⟨nofun, nofun⟩
  | _ => exact ⟨nofun, nofun⟩

theorem scopeKind?_function {n : Node} (kind : n.kind = .function) :
    scopeKind? n = n.name?.map fun _ => .function := by
  simp only [scopeKind?, symbolKind?, kind]

theorem scopeKind?_type {n : Node} (kind : n.kind = .type ∨ n.kind = .interface) :
    scopeKind? n = n.name?.map fun _ => .type := by
  rcases kind with type | interface
  · simp only [scopeKind?, symbolKind?, type]
  · simp only [scopeKind?, symbolKind?, interface]

/-- A node that is neither a definition nor a block of members opens no scope. -/
theorem scopeKind?_eq_none {n : Node} (plain : n.kind.isDefinition = false)
    (free : n.attributes.get? .scope = none) : scopeKind? n = none := by
  obtain ⟨function, type⟩ := symbolKind?_plain plain
  unfold scopeKind?
  split
  · rename_i gives
    exact absurd gives function
  · rename_i gives
    exact absurd gives type
  · rfl
  · rw [free]
    rfl

section

variable {g : Grammar} {source : String} {site : Site} {name : Option String}
  (placed : site.ancestors ≠ [])

include placed

theorem scopeKind?_of_function (kind : g.classify source site = .function)
    (named : (g.annotate source site (g.classify source site)).get? .name = name) :
    scopeKind? (Ast.nodeAt g source site) = name.map fun _ => .function := by
  rw [nodeAt_below placed, scopeKind?_function kind, Node.name?,
    attributesAt_named (by simp [kind]) (by simp [kind]), named]

theorem scopeKind?_of_type
    (kind : g.classify source site = .type ∨ g.classify source site = .interface)
    (named : (g.annotate source site (g.classify source site)).get? .name = name) :
    scopeKind? (Ast.nodeAt g source site) = name.map fun _ => .type := by
  have noReference : g.classify source site ≠ .identifier ∧ g.classify source site ≠ .parameter := by
    rcases kind with kind | kind
    · simp [kind]
    · simp [kind]
  rw [nodeAt_below placed, scopeKind?_type kind, Node.name?,
    attributesAt_named noReference.1 noReference.2, named]

theorem scopeKind?_of_plain (plain : (g.classify source site).isDefinition = false)
    (free : (g.annotate source site (g.classify source site)).get? .scope = none) :
    scopeKind? (Ast.nodeAt g source site) = none := by
  rw [nodeAt_below placed]
  exact scopeKind?_eq_none plain ((get?_attributesAt (by decide)).trans free)

end

/-- The name, the qualified name and the span of each import symbol that a node gives. -/
def importsAt (_ : ScopeKind) (n : Node) : List (String × String × Span) :=
  if isImport n then
    (n.attributes.list .imports).map fun target => (Text.lastSegment target, target, n.span)
  else []

theorem entriesAt_imports (scopes : List Scope) (t : Ast) :
    ((entriesAt scopes t).filter (·.kind == .importing)).map
        (fun e => (e.name, e.qualifiedName, e.tree.data.span)) =
      importsAt (innermost scopes).kind t.data := by
  unfold entriesAt importsAt isImport
  cases symbolKind? t.data with
  | none => rfl
  | some kind =>
      cases kind with
      | importing | call | function | type => simp [List.filter_map, Function.comp_def]
      | var =>
          by_cases inside : (innermost scopes).kind = .function
          · simp [inside]
          · simp [inside, List.filter_map, Function.comp_def]

/-- The name and the span of the variable symbol that a node gives outside of functions. -/
def variablesAt (level : ScopeKind) (n : Node) : List (String × Span) :=
  if symbolKind? n = some .var ∧ level ≠ .function then n.name?.toList.map fun name => (name, n.span)
  else []

theorem entriesAt_variables (scopes : List Scope) (t : Ast) :
    ((entriesAt scopes t).filter (·.kind == .var)).map (fun e => (e.name, e.tree.data.span)) =
      variablesAt (innermost scopes).kind t.data := by
  unfold entriesAt variablesAt
  cases symbolKind? t.data with
  | none => rfl
  | some kind =>
      cases kind with
      | importing | call | function | type => simp [List.filter_map, Function.comp_def]
      | var =>
          by_cases inside : (innermost scopes).kind = .function
          · simp [inside]
          · simp [inside, List.filter_map, Function.comp_def]

section

variable {n : Node} {level : ScopeKind}

theorem variablesAt_function (n : Node) : variablesAt .function n = [] := by
  rw [variablesAt, if_neg fun h => h.2 rfl]

theorem variablesAt_declaration (kind : n.kind = .var ∨ n.kind = .field)
    (outside : level ≠ .function) :
    variablesAt level n = n.name?.toList.map fun name => (name, n.span) := by
  have gives : symbolKind? n = some .var := by
    rcases kind with kind | kind
    · simp only [symbolKind?, kind]
    · simp only [symbolKind?, kind]
  rw [variablesAt, if_pos ⟨gives, outside⟩]

/-- An assignment to a field of a receiver gives no variable. -/
theorem variablesAt_assign (kind : n.kind = .assign) (outside : level ≠ .function) :
    variablesAt level n =
      (if n.attributes.has .receiver then none else n.name?).toList.map fun name =>
        (name, n.span) := by
  have gives : symbolKind? n =
      if n.attributes.has .name && !n.attributes.has .receiver then some .var else none := by
    simp only [symbolKind?, kind]
  rw [variablesAt, gives, Attributes.has, Node.name?]
  cases n.attributes.has .receiver with
  | true => simp
  | false =>
      cases n.attributes.get? .name with
      | none => simp
      | some name => simp [outside]

theorem variablesAt_other (var : n.kind ≠ .var) (field : n.kind ≠ .field)
    (assign : n.kind ≠ .assign) : variablesAt level n = [] := by
  have gives : symbolKind? n ≠ some .var := by
    unfold symbolKind?
    split
    all_goals first | contradiction | exact nofun
  rw [variablesAt, if_neg fun h => gives h.1]

end

/-! ## Readings -/

/-- What a grammar makes of the nodes below a root as far as the walk is led by it: which ones are
    imports, and which ones open a scope, of which kind. Both are told by the node alone. -/
structure Reading (g : Grammar) (source : String) where
  imports : Concrete → Bool
  opens : Concrete → Option ScopeKind
  isImport_node : ∀ site, site.ancestors ≠ [] →
    isImport (Ast.nodeAt g source site) = imports site.node
  scopeKind?_node : ∀ site, site.ancestors ≠ [] →
    scopeKind? (Ast.nodeAt g source site) = opens site.node

namespace Reading

variable {g : Grammar} {source : String} (reading : Reading g source)

/-- The kind of the innermost scope below some nodes, nearest first, and the root. -/
def level (above : List Concrete) : ScopeKind :=
  (above.findSome? reading.opens).getD .file

/-- What is collected from sites outside of imports, when a node gives `own` in a scope of a
    kind. -/
def collect {β : Type} (own : ScopeKind → Node → List β) (sites : List Site) : List β :=
  (sites.filter fun s => !s.above.any reading.imports).flatMap fun s =>
    own (reading.level s.above) (Ast.nodeAt g source s)

section

variable {β : Type} {own : ScopeKind → Node → List β}

theorem collect_append (a b : List Site) :
    reading.collect own (a ++ b) = reading.collect own a ++ reading.collect own b := by
  rw [collect, List.filter_append, List.flatMap_append]
  rfl

theorem collect_cons {s : Site} (free : s.above.any reading.imports = false) (rest : List Site) :
    reading.collect own (s :: rest) =
      own (reading.level s.above) (Ast.nodeAt g source s) ++ reading.collect own rest := by
  rw [collect, List.filter_cons_of_pos (by rw [free]; rfl), List.flatMap_cons]
  rfl

/-- Nothing is collected below an import. -/
theorem collect_dropped {sites : List Site} {t : Concrete} (dropped : reading.imports t = true)
    (below : ∀ s ∈ sites, t ∈ s.above) : reading.collect own sites = [] := by
  have none : (sites.filter fun s => !s.above.any reading.imports) = [] := by
    refine List.filter_eq_nil_iff.mpr fun s inside kept => ?_
    have importAbove : s.above.any reading.imports = true :=
      List.any_eq_true.mpr ⟨t, below s inside, dropped⟩
    rw [importAbove] at kept
    cases kept
  rw [collect, none, List.flatMap_nil]

end

/-- The scope that a node opens is the innermost one below it. -/
theorem innermost_below {site : Site} (placed : site.ancestors ≠ []) {above : List Concrete}
    {scopes : List Scope} (same : (innermost scopes).kind = reading.level above) (number : Nat) :
    (innermost ((opened? scopes number (Ast.nodeAt g source site)).toList ++ scopes)).kind =
      reading.level (site.node :: above) := by
  have opens := reading.scopeKind?_node site placed
  rw [← opened?_kind scopes number] at opens
  rw [level, List.findSome?_cons, ← opens]
  cases opened? scopes number (Ast.nodeAt g source site) with
  | none => exact same
  | some scope => rfl

/-! ## The listing of a tree -/

section

variable {β : Type} {kind : SymbolKind} {view : Entry → β} {own : ScopeKind → Node → List β}

mutual

/-- The entries of a kind in a tree, seen by `view`, are collected from its sites. -/
theorem entriesFrom_collect
    (gives : ∀ scopes t, ((entriesAt scopes t).filter (·.kind == kind)).map view =
      own (innermost scopes).kind t.data)
    (root : Concrete) (above : List Concrete) (free : above.any reading.imports = false)
    (scopes : List Scope) (same : (innermost scopes).kind = reading.level above)
    (first position : Nat) (t : Concrete) :
    ((entriesFrom scopes first (Ast.ofConcreteAt g source (above ++ [root]) position t)).filter
      (·.kind == kind)).map view =
        reading.collect own (t.sitesAt (above ++ [root]) position) := by
  cases t with
  | node label children =>
      let site : Site := ⟨.node label children, position, above ++ [root]⟩
      have placed : site.ancestors ≠ [] := by simp [site]
      have here : site.above = above := List.dropLast_concat
      rw [Ast.ofConcreteAt, entriesFrom, List.filter_append, List.map_append, gives,
        Concrete.sitesAt, reading.collect_cons (here.symm ▸ free), here, ← same]
      refine congrArg (_ ++ ·) ?_
      rw [reading.isImport_node site placed]
      cases dropped : reading.imports site.node with
      | true =>
          refine (reading.collect_dropped dropped fun s inside => ?_).symm
          -- the import stands above every site below it
          obtain ⟨nearer, ending⟩ := Concrete.ancestors_of_sitesFrom _ 0 children inside
          rw [Site.above, ← ending, ← List.cons_append, ← List.append_assoc, List.dropLast_concat]
          exact List.mem_append_right _ List.mem_cons_self
      | false =>
          have freeBelow : (site.node :: above).any reading.imports = false := by
            rw [List.any_cons, dropped, free, Bool.or_false]
          exact entriesAllFrom_collect gives root (site.node :: above) freeBelow _
            (reading.innermost_below placed same first) _ 0 children
termination_by sizeOf t

theorem entriesAllFrom_collect
    (gives : ∀ scopes t, ((entriesAt scopes t).filter (·.kind == kind)).map view =
      own (innermost scopes).kind t.data)
    (root : Concrete) (above : List Concrete) (free : above.any reading.imports = false)
    (scopes : List Scope) (same : (innermost scopes).kind = reading.level above)
    (first position : Nat) (ts : List Concrete) :
    ((entriesAllFrom scopes first
      (Ast.ofChildrenFrom g source (above ++ [root]) position ts)).filter (·.kind == kind)).map view =
        reading.collect own (Concrete.sitesFrom (above ++ [root]) position ts) := by
  cases ts with
  | nil => rfl
  | cons t rest =>
      rw [Ast.ofChildrenFrom, Concrete.sitesFrom]
      split
      · rw [entriesAllFrom, List.filter_append, List.map_append, collect_append,
          entriesFrom_collect gives root above free scopes same first position t,
          entriesAllFrom_collect gives root above free scopes same _ (position + 1) rest]
      · exact entriesAllFrom_collect gives root above free scopes same first (position + 1) rest
termination_by sizeOf ts

end

/-- The entries of a kind in a whole tree. -/
theorem entries_collect
    (gives : ∀ scopes t, ((entriesAt scopes t).filter (·.kind == kind)).map view =
      own (innermost scopes).kind t.data) (t : Concrete) :
    ((entries (Ast.ofConcrete g source t)).filter (·.kind == kind)).map view =
      reading.collect own t.sites := by
  cases t with
  | node label children =>
      exact reading.entriesAllFrom_collect gives (.node label children) [] rfl [{ kind := .file }] rfl
        0 0 children

end

end Reading

end Extract

/-! ## The symbols of a source -/

namespace Syntax.Parsed

open Extract

/-- The symbols of a kind are those of the entries of this kind, as far as an entry tells of its
    symbol by itself. -/
theorem symbols_entries {β : Type} {view : Symbol → β} {viewed : Entry → β} (p : Parsed)
    (unit : SourceUnit) (snippetChars : Nat) (kind : SymbolKind)
    (bare : ∀ s : Symbol, view s.bare = view s)
    (same : ∀ i before after e, view (Entry.symbol i before after e) = viewed e) :
    ((p.symbols unit snippetChars).filter (·.kind == kind)).map view =
      ((entries p.ast).filter (·.kind == kind)).map viewed := by
  let told (s : Symbol) := (s.kind, view s)
  have toldBare : told ∘ Symbol.bare = told := funext fun s => congrArg (s.kind, ·) (bare s)
  have listed : (p.symbols unit snippetChars).map told =
      (entries p.ast).map fun e => (e.kind, viewed e) := by
    have mapped := congrArg (List.map told) (resolved_bare (p.input unit snippetChars) p.ast)
    rw [List.map_map, List.map_map, toldBare] at mapped
    exact mapped.trans (symbolsOf_map fun before after e => congrArg (e.kind, ·) (same _ before after e))
  have chosen := congrArg (fun l => (l.filter (·.1 == kind)).map Prod.snd) listed
  simpa only [List.filter_map, List.map_map, Function.comp_def] using chosen

variable (source : Source) (language : Language) (contentHash : String) (unit : SourceUnit)
  (snippetChars : Nat) (reading : Reading language.grammar source.text)

/-- The import symbols of a source. -/
theorem symbols_imports :
    (((ofSource source language contentHash).symbols unit snippetChars).filter
        (·.kind == .importing)).map (fun s => (s.name, s.qualifiedName, s.span)) =
      reading.collect importsAt (source.tree language).sites :=
  (symbols_entries _ unit snippetChars .importing (fun _ => rfl) fun _ _ _ _ => rfl).trans
    (reading.entries_collect entriesAt_imports _)

/-- The variable symbols of a source. -/
theorem symbols_variables :
    (((ofSource source language contentHash).symbols unit snippetChars).filter
        (·.kind == .var)).map (fun s => (s.name, s.span)) =
      reading.collect variablesAt (source.tree language).sites :=
  (symbols_entries _ unit snippetChars .var (fun _ => rfl) fun _ _ _ _ => rfl).trans
    (reading.entries_collect entriesAt_variables _)

end Syntax.Parsed

end CodeSearch
