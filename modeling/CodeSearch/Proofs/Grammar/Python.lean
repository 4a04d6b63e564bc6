import CodeSearch.Proofs.Symbol.Sites
import CodeSearch.Proofs.Syntax.Attributes

/-! # Imports in Python

The import symbols of a Python source are told by its import statements: one for each target that
a statement outside of other imports names. What is a target is said by the two common forms of the
statement only. The import of future features is an import as well, below which nothing is looked
at, but it has no targets, so the names that stand in it are not listed.
-/

namespace CodeSearch

namespace Grammar.Python

open Syntax Extract

def imports (t : Concrete) : Bool :=
  kindOf t.kind == .importing

/-- The scope of a function or a class that has a name. -/
def opens (source : String) (t : Concrete) : Option ScopeKind :=
  match t.kind with
  | "function_definition" =>
    (Attributes.filled? (t.fieldText source "name")).map fun _ => .function
  | "class_definition" => (Attributes.filled? (t.fieldText source "name")).map fun _ => .type
  | _ => none

/-- The targets that a node names: the name of each child under `name`, in a from-import behind the
    name of the module, or else all of the module. -/
def targets (source : String) (t : Concrete) : List String :=
  match t.kind with
  | "import_statement" => (t.fieldChildren "name").map (importedName source)
  | "import_from_statement" => fromTargets source t
  | _ => []

/-! ## Nodes below the root -/

/-- A kind that is told by more than the node type is that of no import and of no definition. -/
theorem classify_cases (source : String) (site : Site) :
    classify source site = kindOf site.kind ∨
      (classify source site).isDefinition = false ∧ classify source site ≠ .importing ∧
        (kindOf site.kind).isDefinition = false ∧ kindOf site.kind ≠ .importing := by
  unfold classify
  split
  · rename_i identifier
    rw [identifier]
    right
    split
    · decide
    · split
      · decide
      · decide
  · rename_i call
    rw [call]
    right
    split
    · split
      · decide
      · decide
    · decide
  · exact .inl rfl

theorem classify_definition (source : String) (site : Site) :
    (classify source site).isDefinition = (kindOf site.kind).isDefinition := by
  rcases classify_cases source site with same | ⟨plain, -, plainType, -⟩
  · rw [same]
  · rw [plain, plainType]

theorem classify_importing (source : String) (site : Site) :
    (classify source site == .importing) = (kindOf site.kind == .importing) := by
  rcases classify_cases source site with same | ⟨-, other, -, otherType⟩
  · rw [same]
  · rw [beq_eq_false_iff_ne.mpr other, beq_eq_false_iff_ne.mpr otherType]

theorem kindOf_definition {raw : String} (function : raw ≠ "function_definition")
    (type : raw ≠ "class_definition") : (kindOf raw).isDefinition = false := by
  unfold kindOf
  split
  all_goals first | rfl | contradiction

theorem annotate_scope (source : String) (site : Site) (kind : NodeKind) :
    (annotate source site kind).get? .scope = none := by
  unfold annotate
  split <;> grind [named, member]

theorem isImport_node (source : String) (site : Site) (placed : site.ancestors ≠ []) :
    isImport (Ast.nodeAt python source site) = imports site.node := by
  rw [isImport_eq, nodeAt_below placed]
  exact classify_importing source site

/-- The kind of a definition or an import is told by the node type. -/
theorem classify_told {source : String} {site : Site} {kind : NodeKind}
    (type : kindOf site.kind = kind) (told : kind.isDefinition = true ∨ kind = .importing) :
    classify source site = kind := by
  rcases classify_cases source site with same | ⟨-, -, plain, other⟩
  · exact same.trans type
  · rw [type] at plain other
    rcases told with definition | importing
    · rw [definition] at plain
      cases plain
    · exact absurd importing other

theorem annotate_name {source : String} {site : Site}
    (definition : site.kind = "function_definition" ∨ site.kind = "class_definition")
    (kind : NodeKind) : (annotate source site kind).get? .name =
      Attributes.filled? (site.node.fieldText source "name") := by
  rcases definition with function | type
  · simp only [annotate, function]
    grind [named]
  · simp only [annotate, type]
    grind [named]

/-- Functions and classes with a name open a scope. -/
theorem scopeKind?_node (source : String) (site : Site) (placed : site.ancestors ≠ []) :
    scopeKind? (Ast.nodeAt python source site) = opens source site.node := by
  rw [opens, ← Site.kind]
  by_cases function : site.kind = "function_definition"
  · rw [function]
    exact scopeKind?_of_function placed (classify_told (function ▸ rfl) (.inl rfl))
      (annotate_name (.inl function) _)
  by_cases type : site.kind = "class_definition"
  · rw [type]
    exact scopeKind?_of_type placed (.inl (classify_told (type ▸ rfl) (.inl rfl)))
      (annotate_name (.inr type) _)
  · rw [scopeKind?_of_plain placed
      ((classify_definition source site).trans (kindOf_definition function type))
      (annotate_scope source site _)]
    split
    · contradiction
    · contradiction
    · rfl

/-- How the walk is led through Python trees. -/
def reading (source : String) : Reading python source where
  imports := imports
  opens := opens source
  isImport_node := isImport_node source
  scopeKind?_node := scopeKind?_node source

/-! ## Import symbols -/

/-- What is listed of the targets of a node: their pieces between commas, trimmed. -/
def listed (source : String) (t : Concrete) : List String :=
  (Attributes.kept (targets source t)).flatMap Attributes.pieces

/-- Only import statements and from-imports have targets. -/
theorem annotate_plain {source : String} {site : Site} (plain : site.kind ≠ "import_statement")
    (fromModule : site.kind ≠ "import_from_statement") (kind : NodeKind) :
    (annotate source site kind).get? .imports = none := by
  unfold annotate
  split <;> grind [named, member]

theorem targets_plain {source : String} {t : Concrete} (plain : t.kind ≠ "import_statement")
    (fromModule : t.kind ≠ "import_from_statement") : targets source t = [] := by
  unfold targets
  split
  · contradiction
  · contradiction
  · rfl

theorem annotate_imports (source : String) (site : Site) (kind : NodeKind) :
    (annotate source site kind).list .imports = listed source site.node := by
  unfold listed
  by_cases plain : site.kind = "import_statement"
  · rw [annotate, targets, ← Site.kind, plain]
    exact Attributes.list_pushAll_of_absent rfl _
  by_cases fromModule : site.kind = "import_from_statement"
  · rw [annotate, targets, ← Site.kind, fromModule]
    exact Attributes.list_pushAll_of_absent rfl _
  · rw [targets_plain plain fromModule, Attributes.list, annotate_plain plain fromModule]
    rfl

/-- The import symbols that a node gives by itself. -/
theorem importsAt_node (source : String) {site : Site} (placed : site.ancestors ≠ [])
    (level : ScopeKind) :
    importsAt level (Ast.nodeAt python source site) =
      (listed source site.node).map fun target =>
        (Text.lastSegment target, target, site.node.label.span) := by
  have given : (Ast.nodeAt python source site).attributes.list .imports =
      listed source site.node := by
    rw [← annotate_imports source site (python.classify source site), nodeAt_below placed,
      Attributes.list, get?_attributesAt (by decide)]
    rfl
  rw [importsAt, given, isImport_node source site placed]
  split
  · rw [nodeAt_below placed]
  · rename_i other
    have plain : site.node.kind ≠ "import_statement" := fun same => by
      rw [imports, same] at other
      exact other rfl
    have fromModule : site.node.kind ≠ "import_from_statement" := fun same => by
      rw [imports, same] at other
      exact other rfl
    rw [listed, targets_plain plain fromModule]
    rfl

/-- A from-import without names has one target, and nothing else than the two forms of the
    statement has any. -/
theorem targets_length (source : String) (t : Concrete) : (targets source t).length =
    match t.kind with
    | "import_statement" => (t.fieldChildren "name").length
    | "import_from_statement" => max 1 (t.fieldChildren "name").length
    | _ => 0 := by
  unfold targets
  split
  · exact List.length_map _
  · unfold fromTargets
    cases t.fieldChildren "name" with
    | nil => rfl
    | cons name names =>
        simp only [List.length_map, List.length_cons]
        omega
  · rfl

/-- The import symbols of a source are the targets of its import statements outside of other
    imports. Each target is one symbol, named by it, where it is not blank and has no comma, and
    only there. An import statement has a target for each child under `name`, as a from-import has,
    which has one in any case; no other node has targets, so an import of future features has
    none. -/
theorem import_symbols (source : Source) (contentHash : String) (unit : SourceUnit)
    (snippetChars : Nat) :
    (((Parsed.ofSource source .python contentHash).symbols unit snippetChars).filter
        (·.kind == .importing)).map (fun s => (s.name, s.qualifiedName, s.span)) =
      ((source.tree .python).sites.filter fun s => !s.above.any imports).flatMap (fun s =>
        (listed source.text s.node).map fun target =>
          (Text.lastSegment target, target, s.node.label.span)) ∧
    ∀ t : Concrete,
      (listed source.text t = (targets source.text t).map Text.trim ↔
        ∀ target ∈ targets source.text t,
          (Text.trim target).isEmpty = false ∧ ',' ∉ (Text.trim target).toList) ∧
      (targets source.text t).length =
        match t.kind with
        | "import_statement" => (t.fieldChildren "name").length
        | "import_from_statement" => max 1 (t.fieldChildren "name").length
        | _ => 0 := by
  constructor
  · rw [Parsed.symbols_imports source .python contentHash unit snippetChars (reading source.text)]
    exact List.flatMap_congr fun s inside =>
      importsAt_node source.text (Concrete.ancestors_ne_nil (List.mem_filter.mp inside).1) _
  · intro t
    exact ⟨Attributes.flatMap_pieces_eq_trim_iff _, targets_length source.text t⟩

/-- A file with an import of future features. -/
def futureImport : Source :=
  { text := "from __future__ import annotations\n"
    trees := (Concrete.ofPreorder?
      [(0, { kind := "module", span := ⟨0, 35, 1, 2⟩ }),
       (1, { kind := "future_import_statement", span := ⟨0, 34, 1, 1⟩ }),
       (2, { kind := "from", named := false, span := ⟨0, 4, 1, 1⟩ }),
       (2, { kind := "__future__", named := false, span := ⟨5, 15, 1, 1⟩ }),
       (2, { kind := "import", named := false, span := ⟨16, 22, 1, 1⟩ }),
       (2, { kind := "dotted_name", field := some "name", span := ⟨23, 34, 1, 1⟩ }),
       (3, { kind := "identifier", span := ⟨23, 34, 1, 1⟩ })]).toList.map fun t => (.python, t) }

/-- The import of future features is an import with a name, and gives no symbol. -/
theorem future_unlisted :
    ((futureImport.tree .python).sites.filter fun s => imports s.node).map
        (fun s => (s.kind, (s.node.fieldChildren "name").map (·.text futureImport.text))) =
      [("future_import_statement", ["annotations"])] ∧
    (((Parsed.ofSource futureImport .python "").symbols default defaultSnippetChars).filter
      (·.kind == .importing)).length = 0 := by
  decide +kernel

end Grammar.Python

end CodeSearch
