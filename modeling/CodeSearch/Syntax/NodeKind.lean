/-! # Kinds of normalized nodes -/

namespace CodeSearch.Syntax

/-- The vocabulary of normalized nodes, shared by all languages. -/
inductive NodeKind where
  /-- The whole file. -/
  | root
  /-- Function, method or function-valued binding. -/
  | function
  /-- Class, struct, enumeration. -/
  | type
  /-- Interface, trait, protocol. -/
  | interface
  | importing
  | call
  /-- Making an instance of a type. -/
  | construct
  /-- Declaration of a variable or constant. -/
  | var
  | assign
  | parameters
  | parameter
  | block
  /-- Conditional, switch, error handling. -/
  | branch
  | loop
  | returning
  | fieldAccess
  /-- The receiver of a method, seen from its body. -/
  | selfRef
  | identifier
  | literal
  /-- Anonymous function. -/
  | lambda
  | operator
  | comment
  /-- Field declaration of a type. -/
  | field
  | other
  deriving Repr, DecidableEq, Inhabited

namespace NodeKind

def name : NodeKind → String
  | root => "module"
  | function => "function"
  | type => "class"
  | interface => "interface"
  | importing => "import"
  | call => "call"
  | construct => "construct"
  | var => "variable"
  | assign => "assign"
  | parameters => "parameters"
  | parameter => "parameter"
  | block => "block"
  | branch => "branch"
  | loop => "loop"
  | returning => "return"
  | fieldAccess => "field_access"
  | selfRef => "self_ref"
  | identifier => "identifier"
  | literal => "literal"
  | lambda => "lambda"
  | operator => "operator"
  | comment => "comment"
  | field => "field"
  | other => "other"

def all : List NodeKind :=
  [root, function, type, interface, importing, call, construct, var, assign, parameters, parameter,
   block, branch, loop, returning, fieldAccess, selfRef, identifier, literal, lambda, operator,
   comment, field, other]

def ofName? (s : String) : Option NodeKind :=
  all.find? (·.name == s)

/-- Whether nodes of this kind define something named. -/
def isDefinition : NodeKind → Bool
  | function | type | interface => true
  | _ => false

end NodeKind

end CodeSearch.Syntax
