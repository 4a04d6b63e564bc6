import CodeSearch.Decimal.Reader
import CodeSearch.Filter.Reader
import CodeSearch.Json.Members
import CodeSearch.Json.Writer

/-! # Loose arguments

Arguments come as members of an object, each under one of several keys. A text can stand for a
number or a flag that is written in it.
-/

namespace CodeSearch

/-- Why arguments were refused. -/
inductive ArgumentError where
  | missing (key : String)
  | invalidType (key expected : String) (found : Json)
  | filter (cause : FilterError)
  deriving Repr

namespace ArgumentError

def kind : ArgumentError → String
  | missing _ => "missing"
  | invalidType _ _ _ => "invalid_type"
  | filter cause => cause.reason

def message : ArgumentError → String
  | missing key => s!"missing required argument: {key}"
  | invalidType key expected found =>
    let written := found.render
    s!"argument '{key}' must be {expected}, got {written}"
  | filter cause => cause.message

end ArgumentError

namespace Argument

/-- The first of the keys under which there is something, with what is there. -/
def find? (args : Json) (keys : List String) : Option (String × Json) :=
  keys.findSome? fun key => ((args.get? key).filter (!·.isNull)).map fun v => (key, v)

/-- What is read of an argument that need not be there. -/
def readOptional {α : Type} (args : Json) (keys : List String) (expected : String)
    (read : Json → Option α) : Except ArgumentError (Option α) :=
  match find? args keys with
  | none => .ok none
  | some (key, v) =>
    match read v with
    | some a => .ok (some a)
    | none => .error (.invalidType key expected v)

/-- The text of a number, or a text that is not blank. -/
def textOf? : Json → Option String
  | .str s => if Text.isAllBlank s then none else some s
  | .int n => some (Json.int n).render
  | .float x => some (Json.float x).render
  | _ => none

/-- The number that ASCII digits write, with or without a plus before them. -/
def wordOf? (s : String) : Option Nat :=
  let digits := (Text.stripStart? s "+").getD s
  if digits.isEmpty || !digits.toList.all Char.isDigit then none
  else (some (Decimal.natOf digits.toList)).filter (· < Nat.pow 2 64)

def natOf? : Json → Option Nat
  | .str s => wordOf? (Text.trim s)
  | j => j.nat?

/-- A finite number. -/
def floatOf? (j : Json) : Option Float :=
  let x : Option Float :=
    match j with
    | .str s => (Decimal.Literal.ofText? (Text.trim s)).map Decimal.Literal.toFloat
    | j => j.float?
  x.filter (·.isFinite)

def flagOf? : Json → Option Bool
  | .bool b => some b
  | .int 0 => some false
  | .int 1 => some true
  | .str s =>
    match Text.lower (Text.trim s) with
    | "true" | "yes" | "1" => some true
    | "false" | "no" | "0" => some false
    | _ => none
  | _ => none

def text (args : Json) (keys : List String) : Except ArgumentError String := do
  match ← readOptional args keys "a non-empty string" textOf? with
  | some s => pure s
  | none => throw (.missing (keys.headD ""))

def nat? (args : Json) (keys : List String) : Except ArgumentError (Option Nat) :=
  readOptional args keys "a non-negative integer" natOf?

def score? (args : Json) (keys : List String) : Except ArgumentError (Option Score) :=
  readOptional args keys "a number" fun j => (floatOf? j).map (·.toFloat32)

def flag? (args : Json) (keys : List String) : Except ArgumentError (Option Bool) :=
  readOptional args keys "a boolean" flagOf?

end Argument

end CodeSearch
