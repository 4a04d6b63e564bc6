import CodeSearch.Grammar.Basic

/-! # JavaScript and TypeScript trees

The second language extends the first, so one reading serves both.
-/

namespace CodeSearch.Grammar.JavaScript

open Syntax

/-- Node types of expressions that are functions. -/
def functionValues : List String :=
  ["arrow_function", "function_expression", "function", "generator_function"]

def kindOf (raw : String) : NodeKind :=
  match raw with
  | "program" => .root
  | "function_declaration" | "generator_function_declaration" | "method_definition"
  | "function_signature" | "method_signature" | "abstract_method_signature" => .function
  | "class_declaration" | "abstract_class_declaration" | "class" => .type
  | "interface_declaration" => .interface
  | "import_statement" => .importing
  | "call_expression" => .call
  | "new_expression" => .construct
  | "variable_declarator" => .var
  | "assignment_expression" | "augmented_assignment_expression" => .assign
  | "formal_parameters" => .parameters
  | "required_parameter" | "optional_parameter" | "rest_pattern" | "assignment_pattern" =>
    .parameter
  | "statement_block" | "class_body" => .block
  | "if_statement" | "else_clause" | "switch_statement" | "switch_case" | "switch_default"
  | "ternary_expression" | "try_statement" | "catch_clause" => .branch
  | "for_statement" | "for_in_statement" | "while_statement" | "do_statement" => .loop
  | "return_statement" | "yield_expression" => .returning
  | "member_expression" => .fieldAccess
  | "this" => .selfRef
  | "identifier" => .identifier
  | "string" | "template_string" | "number" | "true" | "false" | "null" | "undefined"
  | "regex" => .literal
  | "arrow_function" | "function_expression" | "function" | "generator_function" => .lambda
  | "binary_expression" | "unary_expression" | "update_expression" => .operator
  | "comment" => .comment
  | "field_definition" | "public_field_definition" | "property_signature" => .field
  | _ => .other

/-- A variable bound to a function counts as a function. -/
def classify (site : Site) : NodeKind :=
  match site.kind with
  | "identifier" => if site.isUnder "formal_parameters" then .parameter else .identifier
  | "variable_declarator" =>
    if (site.node.fieldChild? "value").any (functionValues.contains ·.kind) then .function
    else .var
  | raw => kindOf raw

def callee? (source : String) (t : Concrete) : Option Callee := do
  let function ← t.fieldChild? "function"
  match function.kind with
  | "identifier" | "super" => some (function.text source, none)
  | "member_expression" =>
    let name ← function.fieldText? source "property"
    some (name, function.fieldText? source "object")
  | _ => none

/-- The base that a child of a heritage clause names. -/
def baseOf? (source : String) (t : Concrete) : Option String :=
  match t.kind with
  | "identifier" | "type_identifier" | "member_expression" | "nested_type_identifier" =>
    some (Text.lastSegment (t.text source))
  | "generic_type" =>
    let name := (t.fieldText? source "name").getD (t.text source)
    some (Text.lastSegment (Text.baseTypeName name))
  | _ => none

def isHeritageClause (kind : String) : Bool :=
  kind == "extends_clause" || kind == "implements_clause" || kind == "extends_type_clause"

mutual

/-- The bases of a heritage clause: those of its own children, then those of inner clauses. -/
def heritage (source : String) : Concrete → List String
  | .node _ children =>
    (children.filter (·.label.named)).filterMap (baseOf? source) ++ innerHeritage source children

def innerHeritage (source : String) : List Concrete → List String
  | [] => []
  | t :: rest =>
    if t.label.named && isHeritageClause t.kind then heritage source t ++ innerHeritage source rest
    else innerHeritage source rest

end

/-- The bases in the first child of a kind. -/
def heritageUnder (source : String) (t : Concrete) (kind : String) : List String :=
  match t.namedChildren.find? (·.kind == kind) with
  | none => []
  | some clause => heritage source clause

/-- The import target that a child of an import names. -/
def targetOf? (source origin : String) (t : Concrete) : Option String :=
  match t.kind with
  | "import_specifier" =>
    let name := (t.fieldText? source "name").getD (t.text source)
    some s!"{origin}::{name}"
  | "identifier" | "namespace_import" => some origin
  | _ => none

mutual

/-- The targets of an import: those of its own children, then those of inner clauses. -/
def targets (source origin : String) : Concrete → List String
  | .node _ children =>
    (children.filter (·.label.named)).filterMap (targetOf? source origin) ++
      innerTargets source origin children

def innerTargets (source origin : String) : List Concrete → List String
  | [] => []
  | t :: rest =>
    if t.label.named && (t.kind == "import_clause" || t.kind == "named_imports") then
      targets source origin t ++ innerTargets source origin rest
    else innerTargets source origin rest

end

/-- Keep one of equal neighbours. -/
def withoutRepeats : List String → List String
  | [] => []
  | a :: rest =>
    match withoutRepeats rest with
    | [] => [a]
    | b :: kept => if a = b then b :: kept else a :: b :: kept

/-- The targets of an import statement; without any, the module itself. -/
def importTargets (source : String) (t : Concrete) : List String :=
  let origin := ((t.fieldText? source "source").map Text.unquote).getD ""
  match withoutRepeats (targets source origin t) with
  | [] => [origin]
  | found => found

def annotate (source : String) (site : Site) (_ : NodeKind) : Attributes :=
  let t := site.node
  match site.kind with
  | "function_declaration" | "generator_function_declaration" | "function_signature" =>
    named source t "name"
  | "method_definition" | "method_signature" | "abstract_method_signature" =>
    if t.hasToken "static" then (named source t "name").flag .static
    else (named source t "name").set .selfName "this"
  | "variable_declarator" =>
    match (t.fieldChild? "name").filter (·.kind == "identifier") with
    | none => .empty
    | some name => Attributes.empty.set .name (name.text source)
  | "class_declaration" | "abstract_class_declaration" | "class" =>
    (named source t "name").pushAll .bases (heritageUnder source t "class_heritage")
  | "interface_declaration" =>
    (named source t "name").pushAll .bases (heritageUnder source t "extends_type_clause")
  | "import_statement" => Attributes.empty.pushAll .imports (importTargets source t)
  | "call_expression" =>
    match callee? source t with
    | none => .empty
    | some (name, receiver) => (Attributes.empty.set .callee name).setSome .receiver receiver
  | "new_expression" =>
    match t.fieldText? source "constructor" with
    | none => .empty
    | some constructor =>
      let type := Text.lastSegment (Text.baseTypeName constructor)
      (Attributes.empty.set .callee type).set .construct type
  | "member_expression" => member source t "property" "object"
  | "field_definition" | "public_field_definition" | "property_signature" =>
    let name := (t.fieldText? source "property").or (t.fieldText? source "name")
    (Attributes.empty.setSome .name name).flagIf (t.hasToken "static") .static
  | "assignment_expression" | "augmented_assignment_expression" =>
    match t.fieldChild? "left" with
    | none => .empty
    | some left =>
      match left.kind with
      | "identifier" => Attributes.empty.set .name (left.text source)
      | "member_expression" => member source left "property" "object"
      | _ => .empty
  | "required_parameter" | "optional_parameter" => named source t "pattern"
  | _ => .empty

end JavaScript

/-- How JavaScript and TypeScript trees are read. -/
def javascript : Grammar where
  kindOf := JavaScript.kindOf
  classify := fun _ => JavaScript.classify
  annotate := JavaScript.annotate
  selfNames := ["this"]

end CodeSearch.Grammar
