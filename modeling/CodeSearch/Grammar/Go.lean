import CodeSearch.Grammar.Basic

/-! # Go trees -/

namespace CodeSearch.Grammar.Go

open Syntax

def kindOf (raw : String) : NodeKind :=
  match raw with
  | "source_file" => .root
  | "function_declaration" | "method_declaration" | "method_elem" => .function
  | "import_spec" => .importing
  | "call_expression" => .call
  | "composite_literal" => .construct
  | "var_spec" | "const_spec" => .var
  | "assignment_statement" | "short_var_declaration" => .assign
  | "parameter_list" => .parameters
  | "parameter_declaration" | "variadic_parameter_declaration" => .parameter
  | "block" => .block
  | "if_statement" | "expression_switch_statement" | "type_switch_statement" | "select_statement"
  | "expression_case" | "type_case" | "default_case" | "communication_case" => .branch
  | "for_statement" => .loop
  | "return_statement" => .returning
  | "selector_expression" => .fieldAccess
  | "identifier" => .identifier
  | "interpreted_string_literal" | "raw_string_literal" | "int_literal" | "float_literal"
  | "rune_literal" | "true" | "false" | "nil" => .literal
  | "func_literal" => .lambda
  | "binary_expression" | "unary_expression" => .operator
  | "comment" => .comment
  | "field_declaration" => .field
  | _ => .other

/-- Whether the node is the list that declares the receiver of a method. -/
def isReceiverList (site : Site) : Bool :=
  match site.parent?.filter (·.kind == "method_declaration") with
  | none => false
  | some method =>
    method.children.findIdx? (·.label.field == some "receiver") == some site.position

/-- A type declaration is what its type expression says, and the receiver of a method is not
    among its parameters. -/
def classify (site : Site) : NodeKind :=
  match site.kind with
  | "type_spec" =>
    match (site.node.fieldChild? "type").map (·.kind) with
    | some "struct_type" => .type
    | some "interface_type" => .interface
    | _ => .other
  | "parameter_list" => if isReceiverList site then .other else .parameters
  | raw => kindOf raw

/-- The declaration of a method's receiver. -/
def receiver? (t : Concrete) : Option Concrete := do
  let list ← t.fieldChild? "receiver"
  list.namedChildren.find? (·.kind == "parameter_declaration")

/-- Whether the nearest ancestor that is a file, a function or a struct is the file. -/
def isPackageLevel : (ancestors : List Concrete) → Bool
  | [] => false
  | t :: rest =>
    match t.kind with
    | "source_file" => true
    | "function_declaration" | "method_declaration" | "func_literal" | "struct_type" => false
    | _ => isPackageLevel rest

/-- The type that a member of a struct or interface embeds. -/
def embeddedIn? (source : String) (t : Concrete) : Option String :=
  match t.kind with
  | "field_declaration" =>
    if (t.fieldChild? "name").isSome then none
    else (t.fieldText? source "type").map fun type => Text.lastSegment (Text.baseTypeName type)
  | "type_elem" | "constraint_elem" => some (Text.lastSegment (Text.baseTypeName (t.text source)))
  | _ => none

/-- The types embedded in the body of a type declaration. -/
def embedded (source : String) (body : Concrete) : List String :=
  let container : Option Concrete :=
    match body.kind with
    | "struct_type" => body.namedChildren.find? (·.kind == "field_declaration_list")
    | "interface_type" => some body
    | _ => none
  match container with
  | none => []
  | some container => container.namedChildren.filterMap (embeddedIn? source)

/-- The name of the type that a composite literal makes. -/
def constructedType (source : String) (t : Concrete) : String :=
  if t.kind == "qualified_type" then t.fieldText source "name"
  else Text.lastSegment (Text.baseTypeName (t.text source))

def annotate (source : String) (site : Site) (kind : NodeKind) : Attributes :=
  let t := site.node
  match site.kind with
  | "function_declaration" | "method_elem" => named source t "name"
  | "method_declaration" =>
    match receiver? t with
    | none => named source t "name"
    | some receiver =>
      let owner := (receiver.fieldText? source "type").map fun type =>
        Text.lastSegment (Text.baseTypeName type)
      ((named source t "name").setSome .owner owner).setSome .selfName
        (receiver.fieldText? source "name")
  | "type_spec" =>
    if kind == .other then .empty
    else
      let bases := ((t.fieldChild? "type").map (embedded source)).getD []
      (named source t "name").pushAll .bases bases
  | "import_spec" =>
    match t.fieldText? source "path" with
    | none => .empty
    | some path => Attributes.empty.push .imports (Text.unquote path)
  | "call_expression" =>
    match t.fieldChild? "function" with
    | none => .empty
    | some function =>
      match function.kind with
      | "identifier" => Attributes.empty.set .callee (function.text source)
      | "selector_expression" =>
        (Attributes.empty.set .callee (function.fieldText source "field")).set .receiver
          (function.fieldText source "operand")
      | _ => .empty
  | "composite_literal" =>
    match t.fieldChild? "type" with
    | none => .empty
    | some type =>
      let name := constructedType source type
      (Attributes.empty.set .callee name).set .construct name
  | "selector_expression" => member source t "field" "operand"
  | "var_spec" | "const_spec" | "field_declaration" =>
    (named source t "name").flagIf (isPackageLevel site.ancestors) .static
  | "parameter_declaration" => named source t "name"
  | "assignment_statement" | "short_var_declaration" =>
    match (t.fieldChild? "left").bind (·.namedChildren.head?) with
    | none => .empty
    | some target =>
      match target.kind with
      | "identifier" => Attributes.empty.set .name (target.text source)
      | "selector_expression" => member source target "field" "operand"
      | _ => .empty
  | _ => .empty

end Go

/-- How Go trees are read. -/
def go : Grammar where
  kindOf := Go.kindOf
  classify := fun _ => Go.classify
  annotate := Go.annotate
  selfNames := []

end CodeSearch.Grammar
