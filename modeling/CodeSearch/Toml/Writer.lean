import CodeSearch.Decimal.Text
import CodeSearch.Json.Basic
import CodeSearch.Text.Split

/-! # Writing TOML

A string is written in the plainest form that can hold it, an array of more than one item with an
item on each line, and a table under a header of its own behind the members that are none.
-/

namespace CodeSearch.Toml

/-! ## Strings -/

def longestRun (c : Char) (current : Nat) : List Char → Nat
  | [] => current
  | d :: cs => if d == c then longestRun c (current + 1) cs else max current (longestRun c 0 cs)

/-- Whether the character can only be written with an escape. -/
def needsEscape (c : Char) : Bool :=
  (c.toNat < 32 && c != '\t' && c != '\n') || c.toNat == 127

/-- Four hexadecimal digits. -/
def hexDigits (n : Nat) : List Char :=
  [12, 8, 4, 0].map fun shift => (Nat.digitChar (n >>> shift % 16)).toUpper

/-- A character between quotes. Behind `run` quotes a further one has to be escaped when `quotes`
    are allowed in a row. -/
def escape (multiline : Bool) (quotes run : Nat) (c : Char) : List Char :=
  if c == '"' then if quotes ≤ run then ['\\', '"'] else ['"']
  else if c == '\\' then ['\\', '\\']
  else if c == '\t' then ['\\', 't']
  else if c == '\n' then if multiline then ['\n'] else ['\\', 'n']
  else if c.toNat == 8 then ['\\', 'b']
  else if c.toNat == 12 then ['\\', 'f']
  else if c == '\r' then ['\\', 'r']
  else if needsEscape c then '\\' :: 'u' :: hexDigits c.toNat
  else [c]

/-- Characters between quotes. -/
def escapeAll (multiline : Bool) (quotes run : Nat) : List Char → List Char
  | [] => []
  | c :: cs =>
    let written := escape multiline quotes run c
    written ++ escapeAll multiline quotes (if written == ['"'] then run + 1 else 0) cs

def quote (s : String) : String :=
  let cs := s.toList
  let escapes := cs.any needsEscape
  let backslash := cs.contains '\\'
  let newline := cs.contains '\n'
  let doubles := longestRun '"' 0 cs
  let singles := longestRun '\'' 0 cs
  let start := if newline then ['\n'] else []
  let lines := ['"', '"', '"']
  let literals := ['\'', '\'', '\'']
  let basicLines := lines ++ start ++ escapeAll true 2 0 cs ++ lines
  let basic := '"' :: escapeAll false 0 0 cs ++ ['"']
  String.ofList <|
    if !escapes && !backslash && doubles == 0 && !newline then basic
    else if !escapes && singles == 0 && !newline then '\'' :: cs ++ ['\'']
    else if !escapes && !backslash && doubles ≤ 2 then basicLines
    else if !escapes && singles ≤ 2 then literals ++ start ++ cs ++ literals
    else if newline then basicLines
    else basic

/-! ## Values and tables -/

mutual

/-- A value behind a key. There is none for what has no form: nothing, and an integer of more than
    63 bits. -/
def value? : Json → Option String
  | .null => none
  | .bool b => some (if b then "true" else "false")
  | .int n => if -(Nat.pow 2 63 : Int) ≤ n && n < Nat.pow 2 63 then some (toString n) else none
  | .float x => some (Decimal.Parts.ofFloat x).plainWithPoint
  | .str s => some (quote s)
  | .arr [] => some "[]"
  | .arr [v] => do pure ("[" ++ (← value? v) ++ "]")
  | .arr items => do pure ("[" ++ String.join (← itemLines items) ++ "\n]")
  | .obj _ => none

/-- The items of an array, each on its line. -/
def itemLines : List Json → Option (List String)
  | [] => some []
  | v :: rest => do pure (("\n    " ++ (← value? v) ++ ",") :: (← itemLines rest))

end

/-- A member that is no table, on its line. -/
def memberLine? (key : String) (v : Json) : Option String := do
  pure (key ++ " = " ++ (← value? v) ++ "\n")

def isTable : Json → Bool
  | .obj _ => true
  | _ => false

mutual

/-- The tables among the members of a table, each behind an empty line. -/
def tables? (path : String) : List (String × Json) → Option (List String)
  | [] => some []
  | (key, v) :: rest => do
    pure ((← table? (if path.isEmpty then key else path ++ "." ++ key) v) ++ (← tables? path rest))

/-- A table with its header, when the value is one. -/
def table? (path : String) : Json → Option (List String)
  | .obj members => do
    let own := members.filter fun (_, v) => !isTable v
    let lines ← own.mapM fun (key, v) => memberLine? key v
    pure (("[" ++ path ++ "]\n" ++ String.join lines) :: (← tables? path members))
  | _ => some []

end

/-- A document of tables. Keys are written as they are. -/
def render? (members : List (String × Json)) : Option String := do
  pure (Text.join "\n" (← tables? "" members))

end CodeSearch.Toml
