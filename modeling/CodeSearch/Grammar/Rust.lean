import CodeSearch.Grammar.Basic

/-! # Rust trees -/

namespace CodeSearch.Grammar.Rust

open Syntax

def kindOf (raw : String) : NodeKind :=
  match raw with
  | "source_file" => .root
  | "function_item" | "function_signature_item" => .function
  | "struct_item" | "enum_item" | "union_item" => .type
  | "trait_item" => .interface
  | "use_declaration" | "extern_crate_declaration" => .importing
  | "call_expression" => .call
  | "struct_expression" => .construct
  | "let_declaration" | "const_item" | "static_item" => .var
  | "assignment_expression" | "compound_assignment_expr" => .assign
  | "parameters" | "closure_parameters" => .parameters
  | "parameter" | "self_parameter" => .parameter
  | "block" => .block
  | "if_expression" | "match_expression" | "match_arm" | "else_clause" => .branch
  | "for_expression" | "while_expression" | "loop_expression" => .loop
  | "return_expression" => .returning
  | "field_expression" => .fieldAccess
  | "self" => .selfRef
  | "identifier" => .identifier
  | "string_literal" | "raw_string_literal" | "integer_literal" | "float_literal"
  | "boolean_literal" | "char_literal" => .literal
  | "closure_expression" => .lambda
  | "binary_expression" | "unary_expression" => .operator
  | "line_comment" | "block_comment" => .comment
  | "field_declaration" => .field
  | _ => .other

def calleeOf? (source : String) (function : Concrete) : Option Callee :=
  match function.kind with
  | "identifier" => some (function.text source, none)
  | "field_expression" => do
    let name ← function.fieldText? source "field"
    some (name, function.fieldText? source "value")
  | "scoped_identifier" => do
    let name ← function.fieldText? source "name"
    some (name, function.fieldText? source "path")
  | _ => none

def callee? (source : String) (t : Concrete) : Option Callee := do
  let function ← t.fieldChild? "function"
  if function.kind == "generic_function" then
    calleeOf? source (← function.fieldChild? "function")
  else calleeOf? source function

/-- A call of a receiver's `new` makes an instance. -/
def classify (source : String) (site : Site) : NodeKind :=
  match site.kind with
  | "identifier" => if site.isUnder "closure_parameters" then .parameter else .identifier
  | "call_expression" =>
    match callee? source site.node with
    | some ("new", some _) => .construct
    | _ => .call
  | raw => kindOf raw

def takesSelf (t : Concrete) : Bool :=
  (t.fieldChild? "parameters").any (·.namedChildren.any (·.kind == "self_parameter"))

/-- Whether a function is declared in the body of an `impl` or a trait. -/
def isAssociated (site : Site) : Bool :=
  match site.ancestors with
  | body :: owner :: _ =>
    body.kind == "declaration_list" && (owner.kind == "impl_item" || owner.kind == "trait_item")
  | _ => false

def joinPath (base segment : String) : String :=
  if base.isEmpty then segment else s!"{base}::{segment}"

mutual

/-- One path for each target of a use tree below the path `base`. -/
def useTargets (source base : String) : Concrete → List String
  | .node label children =>
    match label.kind with
    | "use_as_clause" => firstUse source base "path" children
    | "scoped_use_list" =>
      let inner :=
        match (children.find? (·.label.field == some "path")).map (·.text source) with
        | some path => joinPath base path
        | none => base
      firstUse source inner "list" children
    | "use_list" => allUses source base children
    | _ => [joinPath base (Text.slice source label.span.startByte label.span.endByte)]

/-- The targets of the first child under a field. -/
def firstUse (source base field : String) : List Concrete → List String
  | [] => []
  | t :: rest =>
    if t.label.field == some field then useTargets source base t
    else firstUse source base field rest

/-- The targets of all named children. -/
def allUses (source base : String) : List Concrete → List String
  | [] => []
  | t :: rest =>
    if t.label.named then useTargets source base t ++ allUses source base rest
    else allUses source base rest

end

/-- The type that a type expression names, for use as a scope or base. -/
def typeName (text : String) : String :=
  Text.lastSegment (Text.baseTypeName text)

def annotate (source : String) (site : Site) (kind : NodeKind) : Attributes :=
  let t := site.node
  match site.kind with
  | "function_item" | "function_signature_item" =>
    if takesSelf t then (named source t "name").set .selfName "self"
    else (named source t "name").flagIf (isAssociated site) .static
  | "struct_item" | "enum_item" | "union_item" => named source t "name"
  | "trait_item" =>
    let bounds := ((t.fieldChild? "bounds").map (·.namedChildren)).getD []
    (named source t "name").pushAll .bases (bounds.map fun bound => typeName (bound.text source))
  | "impl_item" =>
    let scope := (t.fieldText? source "type").map typeName
    let base := (t.fieldText? source "trait").map typeName
    (Attributes.empty.setSome .scope scope).pushAll .bases base.toList
  | "use_declaration" =>
    match t.fieldChild? "argument" with
    | none => .empty
    | some argument => Attributes.empty.pushAll .imports (useTargets source "" argument)
  | "extern_crate_declaration" => Attributes.empty.push .imports (t.fieldText source "name")
  | "call_expression" =>
    match callee? source t with
    | none => .empty
    | some (name, none) => Attributes.empty.set .callee name
    | some (name, some receiver) =>
      let attributes := (Attributes.empty.set .callee name).set .receiver receiver
      if kind == .construct then attributes.set .construct (typeName receiver) else attributes
  | "struct_expression" =>
    match t.fieldText? source "name" with
    | none => .empty
    | some name => (Attributes.empty.set .callee (typeName name)).set .construct (typeName name)
  | "field_expression" => member source t "field" "value"
  | "let_declaration" =>
    match (t.fieldChild? "pattern").filter (·.kind == "identifier") with
    | none => .empty
    | some pattern => Attributes.empty.set .name (pattern.text source)
  | "const_item" | "static_item" => (named source t "name").flag .static
  | "field_declaration" => named source t "name"
  | "assignment_expression" | "compound_assignment_expr" =>
    match t.fieldChild? "left" with
    | none => .empty
    | some left =>
      match left.kind with
      | "identifier" => Attributes.empty.set .name (left.text source)
      | "field_expression" => member source left "field" "value"
      | _ => .empty
  | "parameter" => named source t "pattern"
  | "self_parameter" => Attributes.empty.set .name "self"
  | _ => .empty

end Rust

/-- How Rust trees are read. -/
def rust : Grammar where
  kindOf := Rust.kindOf
  classify := Rust.classify
  annotate := Rust.annotate
  selfNames := ["self"]

end CodeSearch.Grammar
