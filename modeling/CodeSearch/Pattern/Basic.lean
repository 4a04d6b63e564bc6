import CodeSearch.Score
import CodeSearch.Symbol.Basic

/-! # Design patterns

The patterns that can be recognised, and a recognised instance of one.
-/

namespace CodeSearch

inductive Pattern where
  /-- One shared instance behind an accessor. -/
  | singleton
  /-- Creation of one of several types. -/
  | factory
  /-- Construction step by step. -/
  | builder
  /-- Subscribers that are told of changes. -/
  | observer
  /-- Algorithm held in a field. -/
  | strategy
  /-- Wrapper that adds behaviour to a component. -/
  | decorator
  /-- One interface in terms of another. -/
  | adapter
  /-- Traversal with a cursor. -/
  | iterator
  /-- Double dispatch over elements. -/
  | visitor
  /-- Request that can be executed and undone. -/
  | command
  deriving Repr, DecidableEq, Inhabited

namespace Pattern

def all : List Pattern :=
  [singleton, factory, builder, observer, strategy, decorator, adapter, iterator, visitor, command]

def name : Pattern → String
  | singleton => "singleton"
  | factory => "factory"
  | builder => "builder"
  | observer => "observer"
  | strategy => "strategy"
  | decorator => "decorator"
  | adapter => "adapter"
  | iterator => "iterator"
  | visitor => "visitor"
  | command => "command"

/-- Position in the list of all patterns. -/
def rank : Pattern → Nat
  | singleton => 0
  | factory => 1
  | builder => 2
  | observer => 3
  | strategy => 4
  | decorator => 5
  | adapter => 6
  | iterator => 7
  | visitor => 8
  | command => 9

def ofName? (s : String) : Option Pattern :=
  all.find? (·.name == s)

/-- The ASCII letters and digits of a text, in lower case. -/
def bareLetters (s : String) : String :=
  String.ofList ((s.toList.filter Char.isAlphanum).map Char.toLower)

/-- The pattern that a user names, with or without the word pattern behind it. -/
def ofText? (s : String) : Option Pattern :=
  let bare := bareLetters (Text.lower (Text.trim s))
  ofName? ((Text.stripEnd? bare "pattern").getD bare)

/-- What is said of a text that names no pattern. -/
def unknownMessage (s : String) : String :=
  s!"unknown pattern type '{s}'"

end Pattern

/-- A recognised instance of a pattern. -/
structure PatternMatch where
  pattern : Pattern
  /-- The type or function, then the methods that take part. -/
  symbols : List SymbolId
  confidence : Score
  deriving Repr, Inhabited

end CodeSearch
