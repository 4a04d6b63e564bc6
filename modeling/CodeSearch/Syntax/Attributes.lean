import CodeSearch.Keyed
import CodeSearch.Text.Blank
import CodeSearch.Text.Split

/-! # Attributes of normalized nodes

What a grammar knows of a node in words: its name, what it calls, what it imports. A value of
several parts is written with commas between them.
-/

namespace CodeSearch.Syntax

/-- A key under which a node can have a value. -/
inductive Attribute where
  /-- Declared or referenced name. -/
  | name
  /-- Name of what is called. -/
  | callee
  /-- Receiver expression of a call or an access. -/
  | receiver
  /-- Base classes, implemented traits, embedded types. -/
  | bases
  | imports
  /-- Type to which the members of a block belong. -/
  | scope
  /-- Receiver type of a method. -/
  | owner
  /-- Name of the receiver inside a method. -/
  | selfName
  /-- Flag of members that belong to the type itself. -/
  | static
  /-- Type of which an instance is made. -/
  | construct
  deriving Repr, DecidableEq, Inhabited

namespace Attribute

def key : Attribute → String
  | name => "name"
  | callee => "callee"
  | receiver => "receiver"
  | bases => "extends"
  | imports => "import"
  | scope => "scope"
  | owner => "owner"
  | selfName => "self_name"
  | static => "static"
  | construct => "construct"

def all : List Attribute :=
  [name, callee, receiver, bases, imports, scope, owner, selfName, static, construct]

def ofKey? (s : String) : Option Attribute :=
  all.find? (·.key == s)

end Attribute

/-- The values of a node under their keys. -/
structure Attributes where
  entries : Keyed Attribute String := []
  deriving Repr, DecidableEq, Inhabited

namespace Attributes

def empty : Attributes := {}

def get? (a : Attributes) (key : Attribute) : Option String :=
  Keyed.get? a.entries key

def has (a : Attributes) (key : Attribute) : Bool :=
  (a.get? key).isSome

/-- Set a value; an empty one changes nothing. -/
def set (a : Attributes) (key : Attribute) (value : String) : Attributes :=
  if value.isEmpty then a else ⟨Keyed.put a.entries key value⟩

/-- Set a value if there is one. -/
def setSome (a : Attributes) (key : Attribute) (value : Option String) : Attributes :=
  a.set key (value.getD "")

/-- Add a part to a value of several parts; a blank one changes nothing. -/
def push (a : Attributes) (key : Attribute) (part : String) : Attributes :=
  let part := Text.trim part
  if part.isEmpty then a
  else
    let before := (a.get? key).getD ""
    ⟨Keyed.put a.entries key (if before.isEmpty then part else before ++ "," ++ part)⟩

/-- Add parts in their order. -/
def pushAll (a : Attributes) (key : Attribute) (parts : List String) : Attributes :=
  parts.foldl (fun a part => a.push key part) a

def flag (a : Attributes) (key : Attribute) : Attributes :=
  ⟨Keyed.put a.entries key "true"⟩

def flagIf (a : Attributes) (condition : Bool) (key : Attribute) : Attributes :=
  if condition then a.flag key else a

/-- The parts of a value. -/
def list (a : Attributes) (key : Attribute) : List String :=
  match a.get? key with
  | none => []
  | some value => (Text.split value ',').filter (!·.isEmpty)

/-- Whether a flag is raised. -/
def isSet (a : Attributes) (key : Attribute) : Bool :=
  a.get? key == some "true"

def size (a : Attributes) : Nat :=
  a.entries.length

end Attributes

end CodeSearch.Syntax
