import CodeSearch.Grammar.Basic
import CodeSearch.Text.Case

/-! # Python trees -/

namespace CodeSearch.Grammar.Python

open Syntax

def selfNames : List String :=
  ["self", "cls"]

def kindOf (raw : String) : NodeKind :=
  match raw with
  | "module" => .root
  | "function_definition" => .function
  | "class_definition" => .type
  | "import_statement" | "import_from_statement" | "future_import_statement" => .importing
  | "call" => .call
  | "assignment" | "augmented_assignment" => .assign
  | "parameters" | "lambda_parameters" => .parameters
  | "typed_parameter" | "default_parameter" | "typed_default_parameter" | "list_splat_pattern"
  | "dictionary_splat_pattern" => .parameter
  | "block" => .block
  | "if_statement" | "elif_clause" | "else_clause" | "conditional_expression" | "match_statement"
  | "case_clause" | "try_statement" | "except_clause" => .branch
  | "for_statement" | "while_statement" | "list_comprehension" | "set_comprehension"
  | "dictionary_comprehension" | "generator_expression" => .loop
  | "return_statement" | "yield" => .returning
  | "attribute" => .fieldAccess
  | "identifier" => .identifier
  | "string" | "concatenated_string" | "integer" | "float" | "true" | "false" | "none" => .literal
  | "lambda" => .lambda
  | "binary_operator" | "boolean_operator" | "comparison_operator" | "unary_operator"
  | "not_operator" => .operator
  | "comment" => .comment
  | _ => .other

def callee? (source : String) (t : Concrete) : Option Callee := do
  let function ← t.fieldChild? "function"
  match function.kind with
  | "identifier" => some (function.text source, none)
  | "attribute" =>
    let name ← function.fieldText? source "attribute"
    some (name, function.fieldText? source "object")
  | _ => none

def startsUpper (name : String) : Bool :=
  name.toList.head?.any Text.isUpper

/-- A bare name in a parameter list is a parameter, and a call of a capitalized name makes an
    instance. -/
def classify (source : String) (site : Site) : NodeKind :=
  match site.kind with
  | "identifier" =>
    if site.isUnder "parameters" || site.isUnder "lambda_parameters" then .parameter
    else if selfNames.contains (site.node.text source) then .selfRef
    else .identifier
  | "call" =>
    match callee? source site.node with
    | some (name, _) => if startsUpper name then .construct else .call
    | none => .call
  | raw => kindOf raw

/-- The imported name, without its alias. -/
def importedName (source : String) (t : Concrete) : String :=
  if t.kind == "aliased_import" then t.fieldText source "name" else t.text source

def firstParameter? (source : String) (t : Concrete) : Option String := do
  let parameters ← t.fieldChild? "parameters"
  let first ← parameters.namedChildren.head?
  match first.kind with
  | "identifier" => some (first.text source)
  | "typed_parameter" =>
    (first.namedChildren.find? (·.kind == "identifier")).map (·.text source)
  | _ => none

/-- Whether a decorator makes the method one of the class itself. -/
def hasStaticDecorator (source : String) (site : Site) : Bool :=
  match site.parent?.filter (·.kind == "decorated_definition") with
  | none => false
  | some parent => parent.namedChildren.any fun child =>
      child.kind == "decorator" &&
        let text := child.text source
        (Text.contains text "staticmethod" || Text.contains text "classmethod")

/-- Whether the node is a statement directly inside a class body. -/
def isClassLevel (site : Site) : Bool :=
  match site.ancestors with
  | statement :: block :: definition :: _ =>
    statement.kind == "expression_statement" && block.kind == "block" &&
      definition.kind == "class_definition"
  | _ => false

/-- The base classes that are plain or dotted names. -/
def bases (source : String) (t : Concrete) : List String :=
  match t.fieldChild? "superclasses" with
  | none => []
  | some list =>
    let plain (base : Concrete) : Bool := base.kind == "identifier" || base.kind == "attribute"
    (list.namedChildren.filter plain).map fun base => Text.lastSegment (base.text source)

/-- The targets of a from-import: one for each name, or all of the module. -/
def fromTargets (source : String) (t : Concrete) : List String :=
  let origin := t.fieldText source "module_name"
  match t.fieldChildren "name" with
  | [] => [s!"{origin}.*"]
  | names => names.map fun name => s!"{origin}.{importedName source name}"

def annotate (source : String) (site : Site) (kind : NodeKind) : Attributes :=
  let t := site.node
  match site.kind with
  | "function_definition" =>
    let receiver := (firstParameter? source t).filter (selfNames.contains ·)
    ((named source t "name").setSome .selfName receiver).flagIf (hasStaticDecorator source site)
      .static
  | "class_definition" => (named source t "name").pushAll .bases (bases source t)
  | "call" =>
    match callee? source t with
    | none => .empty
    | some (name, receiver) =>
      let attributes := (Attributes.empty.set .callee name).setSome .receiver receiver
      if kind == .construct then attributes.set .construct name else attributes
  | "attribute" => member source t "attribute" "object"
  | "import_statement" =>
    Attributes.empty.pushAll .imports ((t.fieldChildren "name").map (importedName source))
  | "import_from_statement" => Attributes.empty.pushAll .imports (fromTargets source t)
  | "assignment" | "augmented_assignment" =>
    let target : Attributes :=
      match t.fieldChild? "left" with
      | none => .empty
      | some left =>
        match left.kind with
        | "identifier" => Attributes.empty.set .name (left.text source)
        | "attribute" => member source left "attribute" "object"
        | _ => .empty
    target.flagIf (isClassLevel site) .static
  | _ => .empty

end Python

/-- How Python trees are read. -/
def python : Grammar where
  kindOf := Python.kindOf
  classify := Python.classify
  annotate := Python.annotate
  selfNames := Python.selfNames

end CodeSearch.Grammar
