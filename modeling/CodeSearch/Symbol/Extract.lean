import CodeSearch.Symbol.Basic
import CodeSearch.Syntax.ParseCache

/-! # Extracting symbols

One walk over the normalized tree in document order. Definitions open a scope; a block that
belongs to a type, and a method with a receiver type, attach what they declare to that type. After
the walk, calls and bases are looked up among the definitions of the same file; what is not found
there stays a name.
-/

namespace CodeSearch

open Syntax
open Time (Instant)

/-- One version of a file. -/
structure SourceUnit where
  path : String
  language : Language
  contentHash : String
  version : Nat
  modifiedAt : Instant
  author : Option String
  deriving Repr, DecidableEq, Inhabited

namespace SourceUnit

/-- The key of the file's parsed form. -/
def parseKey (u : SourceUnit) : ParseKey :=
  ⟨u.path, u.contentHash, u.language⟩

end SourceUnit

namespace Extract

/-- Number of characters that a snippet keeps unless told otherwise. -/
def defaultSnippetChars : Nat := 2000

/-- Number of characters that a signature keeps. -/
def signatureChars : Nat := 200

inductive ScopeKind where
  | file
  | type
  | function
  /-- Block whose members belong to a type that is named. -/
  | members
  deriving Repr, DecidableEq

/-- A scope that encloses the node at hand. -/
structure Scope where
  kind : ScopeKind
  /-- Qualified name of the scope; empty for the file. -/
  qualifier : String := ""
  /-- Number of the definition that opened the scope. -/
  symbol : Option Nat := none
  /-- Type to which members belong. -/
  owner : Option String := none
  deriving Repr, DecidableEq

/-- What a walk works on and with. -/
structure Input where
  unit : SourceUnit
  text : String
  language : Language
  snippetChars : Nat
  selfNames : List String

/-- What a walk has found so far. -/
structure Found where
  symbols : List Symbol := []
  /-- Definitions that belong to a type by name. -/
  owned : List (Nat × String) := []
  /-- Bases that a member block gives to a type by name. -/
  bases : List (String × String) := []
  deriving Repr, Inhabited

def innermost (scopes : List Scope) : Scope :=
  scopes.headD { kind := .file }

/-- The definition around a node. -/
def enclosing (scopes : List Scope) : Option Nat :=
  scopes.findSome? (·.symbol)

def qualify (scopes : List Scope) (name : String) : String :=
  let qualifier := (innermost scopes).qualifier
  if qualifier.isEmpty then name else s!"{qualifier}::{name}"

/-- The qualified name of a definition; outside of all scopes it is that of a member of its owner,
    if there is one. -/
def qualifyOwned (scopes : List Scope) (owner : Option String) (name : String) : String :=
  match owner, (innermost scopes).kind with
  | some owner, .file => s!"{owner}::{name}"
  | _, _ => qualify scopes name

namespace Found

/-- The id of the definition around a node. -/
def enclosingId (f : Found) (scopes : List Scope) : Option SymbolId :=
  (enclosing scopes).bind fun i => (f.symbols[i]?).map (·.id)

/-- Number of symbols of a kind and qualified name so far, which is the ordinal of the next. -/
def ordinal (f : Found) (kind : SymbolKind) (qualifiedName : String) : Nat :=
  f.symbols.countP fun s => s.kind == kind && s.qualifiedName == qualifiedName

def emit (f : Found) (i : Input) (n : Node) (kind : SymbolKind) (name qualifiedName : String)
    (parent : Option SymbolId) (relations : List Relation) (shape : Option Shape) : Found :=
  let text := n.text i.text
  let symbol : Symbol :=
    { id := SymbolId.derive i.unit.path kind qualifiedName (f.ordinal kind qualifiedName)
      name, qualifiedName, kind
      language := i.language
      unit := ⟨i.unit.path, i.unit.version⟩
      span := n.span
      signature := Text.takeChars signatureChars (Text.trim ((Text.lines text).headD ""))
      bodyHash := Digest.contentHash text
      snippet := Text.takeChars i.snippetChars text
      parent, relations, shape
      modifiedAt := i.unit.modifiedAt
      author := i.unit.author }
  { f with symbols := f.symbols ++ [symbol] }

/-- Add a relation to a symbol that does not have it yet. -/
def relate (f : Found) (number : Nat) (r : Relation) : Found :=
  { f with symbols := f.symbols.modify number fun s =>
      if s.relations.contains r then s else { s with relations := s.relations ++ [r] } }

/-- Add a definition, and give its qualified name. -/
def define (f : Found) (i : Input) (scopes : List Scope) (t : Ast) (kind : SymbolKind)
    (name : String) : Found × String :=
  let attributes := t.data.attributes
  let owner := (attributes.get? .owner).or (innermost scopes).owner
  let qualifiedName := qualifyOwned scopes owner name
  let relations := (attributes.list .bases).map fun base => ⟨.inherits, .unresolved base⟩
  let number := f.symbols.length
  let f := f.emit i t.data kind name qualifiedName (f.enclosingId scopes) relations
    (some (Shape.ofAst t i.selfNames))
  match owner, enclosing scopes with
  | some owner, none => ({ f with owned := f.owned ++ [(number, owner)] }, qualifiedName)
  | _, _ => (f, qualifiedName)

def importTarget (f : Found) (i : Input) (scopes : List Scope) (n : Node) (target : String) :
    Found :=
  f.emit i n .importing (Text.lastSegment target) target (f.enclosingId scopes)
    [⟨.imports, .unresolved target⟩] none

/-- Add a call, and relate the definition around it to what is called. -/
def call (f : Found) (i : Input) (scopes : List Scope) (n : Node) (callee : String) : Found :=
  let relation : Relation := ⟨.calls, .unresolved callee⟩
  let parent := f.enclosingId scopes
  let f :=
    match enclosing scopes with
    | some number => f.relate number relation
    | none => f
  f.emit i n .call callee (qualify scopes callee) parent [relation] none

def variableOf (f : Found) (i : Input) (scopes : List Scope) (n : Node) (name : String) : Found :=
  f.emit i n .var name (qualify scopes name) (f.enclosingId scopes) [] none

end Found

/-- The kind of symbol that a node gives. An assignment gives one when it names a variable and not
    a field of some receiver. -/
def symbolKind? (n : Node) : Option SymbolKind :=
  match n.kind with
  | .function => some .function
  | .type | .interface => some .type
  | .importing => some .importing
  | .call | .construct => some .call
  | .var | .field => some .var
  | .assign =>
    if n.attributes.has .name && !n.attributes.has .receiver then some .var else none
  | _ => none

/-- What happens at a node: the symbols it adds, the scope it opens, and whether the nodes below
    it are looked at. -/
structure Visit where
  found : Found
  scope : Option Scope := none
  descends : Bool := true

/-- Visit a node other than the root. -/
def visit (i : Input) (scopes : List Scope) (t : Ast) (f : Found) : Visit :=
  let n := t.data
  match symbolKind? n with
  | some .importing =>
    { found := (n.attributes.list .imports).foldl (fun f x => f.importTarget i scopes n x) f
      descends := false }
  | some .call =>
    match n.attributes.get? .callee with
    | some callee => { found := f.call i scopes n callee }
    | none => { found := f }
  | some .var =>
    match n.name? with
    | some name =>
      if (innermost scopes).kind == .function then { found := f }
      else { found := f.variableOf i scopes n name }
    | none => { found := f }
  | some kind =>
    match n.name? with
    | some name =>
      let number := f.symbols.length
      let (f, qualifiedName) := f.define i scopes t kind name
      { found := f
        scope := some
          { kind := if kind == .type then .type else .function
            qualifier := qualifiedName, symbol := some number } }
    | none => { found := f }
  | none =>
    match n.attributes.get? .scope with
    | some owner =>
      { found := { f with
          bases := f.bases ++ (n.attributes.list .bases).map fun base => (owner, base) }
        scope := some { kind := .members, qualifier := owner, owner := some owner } }
    | none => { found := f }

/-- A step that is still to be done: a tree to walk over, or a scope to close. -/
inductive Step where
  | enter (t : Ast)
  | leave

def weight : List Step → Nat
  | [] => 0
  | .enter t :: rest => 2 * t.size + weight rest
  | .leave :: rest => 1 + weight rest

theorem weight_append (a b : List Step) : weight (a ++ b) = weight a + weight b := by
  induction a with
  | nil => simp [weight]
  | cons s rest ih => cases s <;> simp [weight, ih, Nat.add_assoc]

theorem weight_enter (ts : List Ast) : weight (ts.map .enter) = 2 * Ast.sizeAll ts := by
  induction ts with
  | nil => rfl
  | cons t rest ih => simp [weight, Ast.sizeAll, ih, Nat.mul_add]

/-- Do all steps in their order, with the innermost scope first in `scopes`. -/
def walk (i : Input) (steps : List Step) (scopes : List Scope) (f : Found) : Found :=
  match steps with
  | [] => f
  | .leave :: rest => walk i rest scopes.tail f
  | .enter t :: rest =>
    let v := visit i scopes t f
    let below := if v.descends then t.children.map Step.enter else []
    match v.scope with
    | none => walk i (below ++ rest) scopes v.found
    | some scope => walk i (below ++ .leave :: rest) (scope :: scopes) v.found
termination_by weight steps
decreasing_by
  · simp [weight]
  · cases t
    split <;> simp [weight, weight_append, weight_enter, Ast.size, Ast.children]
  · cases t
    split <;> simp [weight, weight_append, weight_enter, Ast.size, Ast.children] <;> omega

/-- Walk over a whole tree, whose root is the scope of the file. -/
def ofAst (i : Input) (t : Ast) : Found :=
  walk i (t.children.map .enter) [{ kind := .file }] {}

/-- Number of the first type of a qualified name. -/
def Found.typeNamed? (f : Found) (owner : String) : Option Nat :=
  ((f.symbols.zipIdx.filter (·.1.kind == .type)).find? (·.1.qualifiedName == owner)).map (·.2)

/-- Give a member, told by its number, the type that it belongs to as its parent. -/
def Found.adopt (f : Found) (symbols : List Symbol) (member : Nat × String) : List Symbol :=
  match (f.typeNamed? member.2).bind (f.symbols[·]?) with
  | some type => symbols.modify member.1 fun s => { s with parent := some type.id }
  | none => symbols

/-- Give a type one of the bases of its member blocks. -/
def Found.derive (f g : Found) (base : String × String) : Found :=
  match f.typeNamed? base.1 with
  | some number => g.relate number ⟨.inherits, .unresolved base.2⟩
  | none => g

/-- Give the members of a type their parent, and the type the bases of its member blocks. The
    first type of a qualified name counts. -/
def attach (f : Found) : List Symbol :=
  (f.bases.foldl f.derive { symbols := f.owned.foldl f.adopt f.symbols }).symbols

def firstNamed? (symbols : List Symbol) (kind : SymbolKind) (name : String) : Option SymbolId :=
  (symbols.find? fun s => s.kind == kind && s.name == name).map (·.id)

/-- Look a relation up among the definitions of its file. -/
def resolve (symbols : List Symbol) (r : Relation) : Relation :=
  match r.target with
  | .resolved _ => r
  | .unresolved written =>
    let name := Text.lastSegment written
    let found :=
      match r.kind with
      | .calls => (firstNamed? symbols .function name).or (firstNamed? symbols .type name)
      | .inherits => firstNamed? symbols .type name
      | .imports => none
    match found with
    | some id => { r with target := .resolved id }
    | none => r

/-- Look all relations up among the definitions of the file. -/
def resolveAll (symbols : List Symbol) : List Symbol :=
  symbols.map fun s => { s with relations := s.relations.map (resolve symbols) }

end Extract

def Syntax.Parsed.symbols (p : Parsed) (unit : SourceUnit) (snippetChars : Nat) : List Symbol :=
  let input : Extract.Input :=
    { unit, text := p.text, language := p.language, snippetChars
      selfNames := p.language.grammar.selfNames }
  Extract.resolveAll (Extract.attach (Extract.ofAst input p.ast))

/-- Extract the symbols of a parsed source, whose language has to be registered. -/
def extract? (registered : List Language) (p : Parsed) (unit : SourceUnit) (snippetChars : Nat) :
    Except ParseError (List Symbol) :=
  if p.language ∈ registered then .ok (p.symbols unit snippetChars)
  else .error (.unsupportedLanguage p.language.name)

end CodeSearch
