import CodeSearch.Pattern.Basic

/-! # What patterns are looked for in

A subject is a type with its members, or a function. The pattern rules see it through the words of
its names and the shapes of its methods.
-/

namespace CodeSearch

open Syntax

/-- A type with its members, or a function. -/
structure Subject where
  symbol : Symbol
  /-- The symbols whose parent is the subject. -/
  members : List Symbol
  /-- Names of the types that it extends. -/
  bases : List String
  deriving Repr, Inhabited

namespace Subject

def holdsAny (text : String) (words : List String) : Bool :=
  words.any (Text.contains text)

/-- The name in lower case. -/
def name (s : Subject) : String :=
  Text.lower s.symbol.name

def methods (s : Subject) : List Symbol :=
  s.members.filter (·.kind == .function)

/-- The methods that have a shape: names in lower case, and shapes. -/
def methodShapes (s : Subject) : List (String × Shape) :=
  s.methods.filterMap fun m => m.shape.map fun shape => (Text.lower m.name, shape)

def shapes (s : Subject) : List Shape :=
  s.symbol.shape.toList ++ s.methods.filterMap (·.shape)

def nodes (s : Subject) : List ShapeNode :=
  s.shapes.flatMap (·.nodes)

def namesField (n : ShapeNode) : Bool :=
  match n.kind with
  | .assign | .fieldAccess => n.onSelf
  | .field => true
  | _ => false

/-- Names of fields in lower case: declared ones, and those used through the receiver. -/
def fields (s : Subject) : List String :=
  ((s.members.filter (·.kind == .var)).map fun m => Text.lower m.name) ++
    (s.nodes.filter namesField).filterMap fun n => n.label.map Text.lower

/-- Names of fields of the type itself, in lower case. -/
def staticFields (s : Subject) : List String :=
  (s.nodes.filter fun n =>
    n.isStatic && (n.kind == .assign || n.kind == .var || n.kind == .field)).filterMap
    fun n => n.label.map Text.lower

/-- Whether the name of some field holds one of the words. -/
def hasField (s : Subject) (words : List String) : Bool :=
  s.fields.any (holdsAny · words)

/-- The first method with a shape whose name holds one of the words. -/
def methodNamed? (s : Subject) (words : List String) : Option (String × Shape) :=
  s.methodShapes.find? fun (name, _) => holdsAny (Pattern.bareLetters name) words

/-- Names of the bases of a symbol. Those that point at a symbol are looked up. -/
def baseNames (s : Symbol) (nameOf : SymbolId → Option String) : List String :=
  s.unresolved .inherits ++ (s.resolved .inherits).filterMap nameOf

def of (symbols : List Symbol) (s : Symbol) : Subject :=
  { symbol := s
    members := symbols.filter (·.parent == some s.id)
    bases := baseNames s fun id => (symbols.reverse.find? (·.id == id)).map (·.name) }

/-- The subjects of a file: its types and functions. -/
def all (symbols : List Symbol) : List Subject :=
  (symbols.filter fun s => s.kind == .type || s.kind == .function).map (of symbols)

end Subject

end CodeSearch
