import CodeSearch.Proofs.Symbol.Sites

/-! # Variables in Go

The variable symbols of a Go source are told by its declarations and assignments outside of
functions. A node has one name at most, and a declaration has that of its first child under `name`;
so a declaration of several names is listed by the first one only.
-/

namespace CodeSearch

namespace Grammar.Go

open Syntax Extract

def imports (t : Concrete) : Bool :=
  t.kind == "import_spec"

def functions : List String :=
  ["function_declaration", "method_declaration", "method_elem"]

/-- Node types that declare variables, constants or fields. -/
def declarations : List String :=
  ["var_spec", "const_spec", "field_declaration"]

def assignments : List String :=
  ["assignment_statement", "short_var_declaration"]

/-- The kind that a type declaration has by its type expression. -/
def typeKind (t : Concrete) : NodeKind :=
  match (t.fieldChild? "type").map (·.kind) with
  | some "struct_type" => .type
  | some "interface_type" => .interface
  | _ => .other

/-- The scope of a function, or of a struct or interface, that has a name. -/
def opens (source : String) (t : Concrete) : Option ScopeKind :=
  let name := Attributes.filled? (t.fieldText source "name")
  if t.kind ∈ functions then name.map fun _ => .function
  else if t.kind = "type_spec" ∧ typeKind t ≠ .other then name.map fun _ => .type
  else none

/-- Whether the innermost definition with a name among some nodes, nearest first, is a function. -/
def inFunction (source : String) (above : List Concrete) : Bool :=
  above.findSome? (opens source) == some .function

/-- The first target of an assignment. -/
def assigned? (t : Concrete) : Option Concrete :=
  (t.fieldChild? "left").bind (·.namedChildren.head?)

/-- The name of a node that counts as a variable: for a declaration that of its first child under
    `name`, and for an assignment its first target, unless this is a field of some operand. -/
def declared? (source : String) (t : Concrete) : Option String :=
  if t.kind ∈ declarations then Attributes.filled? (t.fieldText source "name")
  else if t.kind ∈ assignments then
    (assigned? t).bind fun target =>
      if target.kind = "identifier" then Attributes.filled? (target.text source)
      else if target.kind = "selector_expression" ∧ target.fieldText source "operand" = "" then
        Attributes.filled? (target.fieldText source "field")
      else none
  else none

/-! ## Nodes below the root -/

theorem kindOf_importing (raw : String) : (kindOf raw == .importing) = (raw == "import_spec") := by
  unfold kindOf
  split
  all_goals first | rfl | simp_all

theorem kindOf_definition (raw : String) : (kindOf raw).isDefinition =
    (raw == "function_declaration" || raw == "method_declaration" || raw == "method_elem") := by
  unfold kindOf
  split
  all_goals first | rfl | simp_all [NodeKind.isDefinition]

theorem annotate_scope (source : String) (site : Site) (kind : NodeKind) :
    (annotate source site kind).get? .scope = none := by
  unfold annotate
  split <;> grind [named, member]

/-- The kind of most nodes is told by the node type. -/
theorem classify_told {site : Site} (type : site.kind ≠ "type_spec")
    (list : site.kind ≠ "parameter_list") : classify site = kindOf site.kind := by
  unfold classify
  split
  · contradiction
  · contradiction
  · rfl

theorem classify_among {site : Site} {raws : List String} (inside : site.kind ∈ raws)
    (type : "type_spec" ∉ raws) (list : "parameter_list" ∉ raws) :
    classify site = kindOf site.kind :=
  classify_told (fun same => type (same ▸ inside)) fun same => list (same ▸ inside)

theorem classify_type {site : Site} (type : site.kind = "type_spec") :
    classify site = typeKind site.node := by
  rw [classify, type]
  rfl

theorem classify_importing (site : Site) :
    (classify site == .importing) = (site.kind == "import_spec") := by
  unfold classify
  split
  · rename_i type
    rw [type]
    split <;> rfl
  · rename_i list
    rw [list]
    split <;> rfl
  · exact kindOf_importing site.kind

theorem isImport_node (source : String) (site : Site) (placed : site.ancestors ≠ []) :
    isImport (Ast.nodeAt go source site) = imports site.node := by
  rw [isImport_eq, nodeAt_below placed]
  exact classify_importing site

theorem classify_function {site : Site} (function : site.kind ∈ functions) :
    classify site = .function := by
  have told : ∀ raw ∈ functions, kindOf raw = .function := by decide
  rw [classify_among function (by decide) (by decide)]
  exact told _ function

/-- Besides functions, only structs and interfaces are definitions. -/
theorem classify_plain {site : Site} (function : site.kind ∉ functions)
    (type : ¬(site.kind = "type_spec" ∧ typeKind site.node ≠ .other)) :
    (classify site).isDefinition = false := by
  by_cases spec : site.kind = "type_spec"
  · have other : typeKind site.node = .other := by_contra fun kind => type ⟨spec, kind⟩
    rw [classify_type spec, other]
    rfl
  by_cases list : site.kind = "parameter_list"
  · have told : classify site = if isReceiverList site then .other else .parameters := by
      rw [classify, list]
      rfl
    rw [told]
    split <;> rfl
  · rw [classify_told spec list, kindOf_definition]
    simpa [functions, and_assoc] using function

theorem typeKind_cases (t : Concrete) :
    typeKind t = .type ∨ typeKind t = .interface ∨ typeKind t = .other := by
  unfold typeKind
  split
  · exact .inl rfl
  · exact .inr (.inl rfl)
  · exact .inr (.inr rfl)

/-- A definition or a declaration is named by its first child under `name`. -/
theorem annotate_name {source : String} {site : Site} {kind : NodeKind}
    (named : site.kind ∈ functions ∨ site.kind = "type_spec" ∧ kind ≠ .other ∨
      site.kind ∈ declarations) :
    (annotate source site kind).get? .name =
      Attributes.filled? (site.node.fieldText source "name") := by
  simp only [functions, declarations, List.mem_cons, List.not_mem_nil, or_false] at named
  rcases named with (h | h | h) | ⟨h, type⟩ | h | h | h
  all_goals
    simp only [annotate, h]
    grind [Grammar.named]

/-- Functions, structs and interfaces with a name open a scope. -/
theorem scopeKind?_node (source : String) (site : Site) (placed : site.ancestors ≠ []) :
    scopeKind? (Ast.nodeAt go source site) = opens source site.node := by
  rw [opens, ← Site.kind]
  split
  · rename_i function
    exact scopeKind?_of_function placed (classify_function function)
      (annotate_name (.inl function))
  · rename_i function
    split
    · rename_i type
      have kind := classify_type type.1
      have definition : classify site = .type ∨ classify site = .interface := by
        rw [kind]
        exact (typeKind_cases site.node).imp_right fun rest => rest.resolve_right type.2
      exact scopeKind?_of_type placed definition
        (annotate_name (.inr (.inl ⟨type.1, fun other => type.2 (kind.symm.trans other)⟩)))
    · rename_i type
      exact scopeKind?_of_plain placed (classify_plain function type) (annotate_scope source site _)

/-- How the walk is led through Go trees. -/
def reading (source : String) : Reading go source where
  imports := imports
  opens := opens source
  isImport_node := isImport_node source
  scopeKind?_node := scopeKind?_node source

/-! ## Variable symbols -/

theorem classify_declaration {site : Site} (declaration : site.kind ∈ declarations) :
    classify site = .var ∨ classify site = .field := by
  have told : ∀ raw ∈ declarations, kindOf raw = .var ∨ kindOf raw = .field := by decide
  rw [classify_among declaration (by decide) (by decide)]
  exact told _ declaration

theorem classify_assignment {site : Site} (assignment : site.kind ∈ assignments) :
    classify site = .assign := by
  have told : ∀ raw ∈ assignments, kindOf raw = .assign := by decide
  rw [classify_among assignment (by decide) (by decide)]
  exact told _ assignment

theorem kindOf_other {raw : String} (declaration : raw ∉ declarations)
    (assignment : raw ∉ assignments) :
    kindOf raw ≠ .var ∧ kindOf raw ≠ .field ∧ kindOf raw ≠ .assign := by
  unfold kindOf
  split
  all_goals first
    | exact absurd (by decide) declaration
    | exact absurd (by decide) assignment
    | decide

theorem classify_other {site : Site} (declaration : site.kind ∉ declarations)
    (assignment : site.kind ∉ assignments) :
    classify site ≠ .var ∧ classify site ≠ .field ∧ classify site ≠ .assign := by
  unfold classify
  split
  · split <;> decide
  · split <;> decide
  · exact kindOf_other declaration assignment

theorem annotate_assignment {site : Site} (source : String) (kind : NodeKind)
    (assignment : site.kind ∈ assignments) : annotate source site kind =
      match assigned? site.node with
      | none => .empty
      | some target =>
        match target.kind with
        | "identifier" => Attributes.empty.set .name (target.text source)
        | "selector_expression" => member source target "field" "operand"
        | _ => .empty := by
  rcases List.mem_pair.mp assignment with plain | short
  · rw [annotate, plain]
    rfl
  · rw [annotate, short]
    rfl

/-- The target of an assignment is a variable unless it is a field of some operand. -/
theorem assigned_name {source : String} {site : Site} (kind : NodeKind)
    (assignment : site.kind ∈ assignments) :
    (if (annotate source site kind).has .receiver then none
      else (annotate source site kind).get? .name) = declared? source site.node := by
  have other : site.kind ∉ declarations := by
    have apart : ∀ raw ∈ assignments, raw ∉ declarations := by decide
    exact apart _ assignment
  rw [annotate_assignment source kind assignment, declared?, ← Site.kind, if_neg other,
    if_pos assignment]
  cases assigned? site.node with
  | none => rfl
  | some target =>
      rw [Option.bind_some]
      by_cases identifier : target.kind = "identifier"
      · simp [identifier, Attributes.has, Attributes.get?_set, Attributes.get?_empty]
      by_cases selector : target.kind = "selector_expression"
      · by_cases operand : target.fieldText source "operand" = ""
        · simp [selector, operand, member, Grammar.named, Attributes.has, Attributes.get?_set,
            Attributes.get?_empty, Attributes.filled?]
        · simp [selector, operand, member, Grammar.named, Attributes.has, Attributes.get?_set,
            Attributes.get?_empty, Attributes.filled?]
      · simp [identifier, selector, Attributes.has, Attributes.get?_empty]

/-- The variable symbols that a node gives by itself. -/
theorem variablesAt_node (source : String) {site : Site} (placed : site.ancestors ≠ [])
    {level : ScopeKind} (outside : level ≠ .function) :
    variablesAt level (Ast.nodeAt go source site) =
      (declared? source site.node).toList.map fun name => (name, site.node.label.span) := by
  rw [nodeAt_below placed]
  by_cases declaration : site.kind ∈ declarations
  · have kind := classify_declaration declaration
    have named : (Ast.attributesAt go source site (classify site)).get? .name =
        declared? source site.node := by
      have noReference : classify site ≠ .identifier ∧ classify site ≠ .parameter := by
        rcases kind with kind | kind
        · simp [kind]
        · simp [kind]
      rw [attributesAt_named noReference.1 noReference.2, declared?, ← Site.kind,
        if_pos declaration]
      exact annotate_name (.inr (.inr declaration))
    rw [variablesAt_declaration kind outside, Node.name?, ← named]
    rfl
  by_cases assignment : site.kind ∈ assignments
  · have kind : go.classify source site = .assign := classify_assignment assignment
    rw [variablesAt_assign kind outside, Node.name?,
      attributesAt_named (by simp [kind]) (by simp [kind]),
      ← assigned_name (go.classify source site) assignment]
    rfl
  · obtain ⟨var, field, assign⟩ := classify_other declaration assignment
    rw [variablesAt_other var field assign, declared?, ← Site.kind, if_neg declaration,
      if_neg assignment]
    rfl

theorem level_inFunction (source : String) (above : List Concrete) :
    (reading source).level above = .function ↔ inFunction source above = true := by
  rw [Reading.level, inFunction, beq_iff_eq]
  show (above.findSome? (opens source)).getD .file = .function ↔ _
  cases above.findSome? (opens source) with
  | none => exact iff_of_false (by decide) (by decide)
  | some kind => rw [Option.getD_some, Option.some.injEq]

/-- Nothing is lost by leaving out what gives nothing. -/
theorem flatMap_filter {α β : Type} {l : List α} {p : α → Bool} {f : α → List β}
    (dropped : ∀ a ∈ l, p a = false → f a = []) : (l.filter p).flatMap f = l.flatMap f := by
  induction l with
  | nil => rfl
  | cons a rest ih =>
      have behind := ih fun b inside => dropped b (List.mem_cons_of_mem _ inside)
      cases kept : p a with
      | true => rw [List.filter_cons_of_pos kept, List.flatMap_cons, List.flatMap_cons, behind]
      | false =>
          rw [List.filter_cons_of_neg (by simp [kept]), List.flatMap_cons,
            dropped a List.mem_cons_self kept, List.nil_append, behind]

theorem collect_variables (source : String) (t : Concrete) :
    (reading source).collect variablesAt t.sites =
      (t.sites.filter fun s => !s.above.any imports && !inFunction source s.above).flatMap fun s =>
        (declared? source s.node).toList.map fun name => (name, s.node.label.span) := by
  have split : (t.sites.filter fun s => !s.above.any imports && !inFunction source s.above) =
      (t.sites.filter fun s => !s.above.any imports).filter fun s =>
        !inFunction source s.above := by
    rw [List.filter_filter]
    simp only [Bool.and_comm]
  rw [Reading.collect, split]
  refine (flatMap_filter fun s _ inside => ?_).symm.trans (List.flatMap_congr fun s inside => ?_)
  · rw [(level_inFunction source s.above).mpr (by simpa using inside), variablesAt_function]
  · obtain ⟨known, outside⟩ := List.mem_filter.mp inside
    refine variablesAt_node source (Concrete.ancestors_ne_nil (List.mem_filter.mp known).1) ?_
    intro level
    rw [(level_inFunction source s.above).mp level] at outside
    cases outside

/-- A declaration is listed by all of its names if there is one at most and no name is empty, and
    only then. -/
theorem declared?_eq_names_iff {source : String} {t : Concrete} (declaration : t.kind ∈ declarations) :
    (declared? source t).toList = (t.fieldChildren "name").map (·.text source) ↔
      (t.fieldChildren "name").length ≤ 1 ∧
        ∀ name ∈ t.fieldChildren "name", name.text source ≠ "" := by
  have first : t.fieldText source "name" =
      (((t.fieldChildren "name").map (·.text source)).head?).getD "" := by
    rw [Concrete.fieldText, Concrete.fieldText?, Concrete.fieldChild?, Concrete.fieldChildren,
      List.head?_map, List.head?_filter]
  rw [declared?, if_pos declaration, first]
  cases names : t.fieldChildren "name" with
  | nil => simp [Attributes.filled?]
  | cons name rest =>
      cases rest with
      | nil => by_cases empty : name.text source = "" <;> simp [Attributes.filled?, empty]
      | cons other more =>
        by_cases empty : name.text source = "" <;> simp [Attributes.filled?, empty]

/-- The variable symbols of a source are the names of its declarations and assignments outside of
    functions. Of a declaration this is the first child under `name`, so all of its names are listed
    if there is one at most and no name is empty, and only then. -/
theorem variable_symbols (source : Source) (contentHash : String) (unit : SourceUnit)
    (snippetChars : Nat) :
    (((Parsed.ofSource source .go contentHash).symbols unit snippetChars).filter
        (·.kind == .var)).map (fun s => (s.name, s.span)) =
      ((source.tree .go).sites.filter fun s =>
        !s.above.any imports && !inFunction source.text s.above).flatMap (fun s =>
          (declared? source.text s.node).toList.map fun name => (name, s.node.label.span)) ∧
    ∀ t : Concrete, t.kind ∈ declarations →
      ((declared? source.text t).toList = (t.fieldChildren "name").map (·.text source.text) ↔
        (t.fieldChildren "name").length ≤ 1 ∧
          ∀ name ∈ t.fieldChildren "name", name.text source.text ≠ "") := by
  constructor
  · rw [Parsed.symbols_variables source .go contentHash unit snippetChars (reading source.text)]
    exact collect_variables source.text _
  · intro t declaration
    exact declared?_eq_names_iff declaration

/-- A declaration of two variables, and one of one variable. -/
def twoNames : Source :=
  { text := "package p\n\nvar a, b int\nvar c int\n"
    trees := (Concrete.ofPreorder?
      [(0, { kind := "source_file", span := ⟨0, 34, 1, 5⟩ }),
       (1, { kind := "package_clause", span := ⟨0, 9, 1, 1⟩ }),
       (2, { kind := "package", named := false, span := ⟨0, 7, 1, 1⟩ }),
       (2, { kind := "package_identifier", span := ⟨8, 9, 1, 1⟩ }),
       (1, { kind := "var_declaration", span := ⟨11, 23, 3, 3⟩ }),
       (2, { kind := "var", named := false, span := ⟨11, 14, 3, 3⟩ }),
       (2, { kind := "var_spec", span := ⟨15, 23, 3, 3⟩ }),
       (3, { kind := "identifier", field := some "name", span := ⟨15, 16, 3, 3⟩ }),
       (3, { kind := ",", named := false, span := ⟨16, 17, 3, 3⟩ }),
       (3, { kind := "identifier", field := some "name", span := ⟨18, 19, 3, 3⟩ }),
       (3, { kind := "type_identifier", field := some "type", span := ⟨20, 23, 3, 3⟩ }),
       (1, { kind := "var_declaration", span := ⟨24, 33, 4, 4⟩ }),
       (2, { kind := "var", named := false, span := ⟨24, 27, 4, 4⟩ }),
       (2, { kind := "var_spec", span := ⟨28, 33, 4, 4⟩ }),
       (3, { kind := "identifier", field := some "name", span := ⟨28, 29, 4, 4⟩ }),
       (3, { kind := "type_identifier", field := some "type",
             span := ⟨30, 33, 4, 4⟩ })]).toList.map fun t => (.go, t) }

/-- The second declaration. -/
def singleSpec : Concrete :=
  .node { kind := "var_spec", span := ⟨28, 33, 4, 4⟩ }
    [.node { kind := "identifier", field := some "name", span := ⟨28, 29, 4, 4⟩ } [],
     .node { kind := "type_identifier", field := some "type", span := ⟨30, 33, 4, 4⟩ } []]

/-- It is listed by its one name. -/
theorem single_name_listed : singleSpec.kind ∈ declarations ∧
    (declared? twoNames.text singleSpec).toList = ["c"] := by
  have declaration : singleSpec.kind ∈ declarations := by decide
  have listed := (variable_symbols twoNames "" default defaultSnippetChars).2 singleSpec declaration
  exact ⟨declaration, (listed.mpr (by decide +kernel)).trans (by decide +kernel)⟩

/-- Of the first declaration only the first name is listed. -/
theorem second_name_unlisted :
    ((twoNames.tree .go).sites.filter fun s => s.kind ∈ declarations).map (fun s =>
        (inFunction twoNames.text s.above,
          (s.node.fieldChildren "name").map (·.text twoNames.text))) =
      [(false, ["a", "b"]), (false, ["c"])] ∧
    (((Parsed.ofSource twoNames .go "").symbols default defaultSnippetChars).filter
      (·.kind == .var)).map (·.name) = ["a", "c"] := by
  decide +kernel

end Grammar.Go

end CodeSearch
