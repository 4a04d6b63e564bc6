import CodeSearch.Decimal.Reader
import CodeSearch.Json.Basic

/-! # Writing JSON texts

A value is written without blanks, or over several lines. Characters outside of ASCII stand for
themselves.
-/

namespace CodeSearch.Json

/-- A character inside a string. -/
def escape (c : Char) : List Char :=
  if c == '"' then ['\\', '"']
  else if c == '\\' then ['\\', '\\']
  else if c == '\x08' then ['\\', 'b']
  else if c == '\x0c' then ['\\', 'f']
  else if c == '\n' then ['\\', 'n']
  else if c == '\r' then ['\\', 'r']
  else if c == '\t' then ['\\', 't']
  else if c.toNat < 0x20 then
    ['\\', 'u', '0', '0', Nat.digitChar (c.toNat / 16), Nat.digitChar (c.toNat % 16)]
  else [c]

/-- A string between quotation marks. -/
def quote (s : String) : String :=
  String.ofList ('"' :: s.toList.flatMap escape ++ ['"'])

mutual

/-- The pieces of the text of a value, put before `rest`. -/
def pieces : Json → List String → List String
  | null, rest => "null" :: rest
  | bool b, rest => (if b then "true" else "false") :: rest
  | int n, rest => toString n :: rest
  | float x, rest => ((Decimal.Parts.ofFloat x).number?.getD "null") :: rest
  | str s, rest => quote s :: rest
  | arr items, rest => "[" :: itemPieces true items ("]" :: rest)
  | obj members, rest => "\x7b" :: memberPieces true members ("\x7d" :: rest)

def itemPieces (isFirst : Bool) : List Json → List String → List String
  | [], rest => rest
  | v :: vs, rest => (if isFirst then "" else ",") :: pieces v (itemPieces false vs rest)

def memberPieces (isFirst : Bool) : List (String × Json) → List String → List String
  | [], rest => rest
  | (key, v) :: vs, rest =>
    (if isFirst then "" else ",") :: quote key :: ":" :: pieces v (memberPieces false vs rest)

end

/-- The text of a value. -/
def render (v : Json) : String :=
  String.join (pieces v [])

/-! ## Over several lines

Each item and each member has a line of its own, two blanks further in than what it belongs to.
-/

def lineStart (depth : Nat) : String :=
  String.ofList ('\n' :: List.replicate (2 * depth) ' ')

mutual

/-- The pieces of the text of a value, put before `rest`. -/
def prettyPieces (depth : Nat) : Json → List String → List String
  | arr [], rest => "[]" :: rest
  | arr (v :: vs), rest =>
    "[" :: lineStart (depth + 1) :: prettyPieces (depth + 1) v
      (prettyItems (depth + 1) vs (lineStart depth :: "]" :: rest))
  | obj [], rest => "\x7b\x7d" :: rest
  | obj ((key, v) :: members), rest =>
    "\x7b" :: lineStart (depth + 1) :: quote key :: ": " :: prettyPieces (depth + 1) v
      (prettyMembers (depth + 1) members (lineStart depth :: "\x7d" :: rest))
  | v, rest => pieces v rest

/-- The items after the first one. -/
def prettyItems (depth : Nat) : List Json → List String → List String
  | [], rest => rest
  | v :: vs, rest => "," :: lineStart depth :: prettyPieces depth v (prettyItems depth vs rest)

/-- The members after the first one. -/
def prettyMembers (depth : Nat) : List (String × Json) → List String → List String
  | [], rest => rest
  | (key, v) :: members, rest =>
    "," :: lineStart depth :: quote key :: ": " ::
      prettyPieces depth v (prettyMembers depth members rest)

end

/-- The text of a value over several lines. -/
def pretty (v : Json) : String :=
  String.join (prettyPieces 0 v [])

/-- The float with the shortest decimal that stands for the same single-precision float. -/
def narrowFloat (x : Float) : Float :=
  let decimal := (Decimal.Parts.ofFloat32 x.toFloat32).plain
  ((Decimal.Literal.ofText? decimal).map Decimal.Literal.toFloat).getD x

mutual

/-- A value whose floats are narrowed, so that they are written in single precision. -/
def narrow : Json → Json
  | float x => float (narrowFloat x)
  | arr vs => arr (narrowItems vs)
  | obj members => obj (narrowMembers members)
  | v => v

def narrowItems : List Json → List Json
  | [] => []
  | v :: vs => narrow v :: narrowItems vs

def narrowMembers : List (String × Json) → List (String × Json)
  | [] => []
  | (key, v) :: members => (key, narrow v) :: narrowMembers members

end

end CodeSearch.Json
