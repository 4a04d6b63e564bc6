import CodeSearch.Json.Number

/-! # Reading JSON texts

A text is cut into tokens by a machine that looks at one character at a time; a second machine
puts the tokens together, with a stack of the arrays and objects that are still open.
-/

namespace CodeSearch.Json

/-- A token of a JSON text. -/
inductive Token where
  | openArray
  | closeArray
  | openObject
  | closeObject
  | comma
  | colon
  /-- A string, a number, or one of the words. -/
  | atom (value : Json)
  deriving Repr, Inhabited

/-- Blank characters between tokens. -/
def isSpace (c : Char) : Bool :=
  c == ' ' || c == '\n' || c == '\t' || c == '\r'

def isNumberChar (c : Char) : Bool :=
  c.isDigit || c == '-' || c == '+' || c == '.' || c == 'e' || c == 'E'

/-- Where the tokenizer stands. Characters are collected in reverse. -/
inductive Mode where
  | between
  | number (seen : List Char)
  | word (seen : List Char)
  | string (seen : List Char)
  | escape (seen : List Char)
  /-- Inside the four digits of an escape, after the leading half of a pair if there is one. -/
  | hex (seen : List Char) (left value : Nat) (lead : Option Nat)
  /-- After the leading half of a pair, before the backslash of the other half. -/
  | pair (seen : List Char) (lead : Nat)
  | pairEscape (seen : List Char) (lead : Nat)
  deriving Repr, Inhabited

/-- The tokenizer's state: the tokens so far in reverse, and its mode. -/
structure Scan where
  tokens : List Token := []
  mode : Mode := .between
  deriving Repr, Inhabited

/-- Finish a number or word. -/
def Scan.finish? (s : Scan) : Option Scan :=
  match s.mode with
  | .between => some s
  | .number seen => (number? seen.reverse).map fun n => ⟨.atom n :: s.tokens, .between⟩
  | .word seen =>
    match String.ofList seen.reverse with
    | "null" => some ⟨.atom null :: s.tokens, .between⟩
    | "true" => some ⟨.atom (bool true) :: s.tokens, .between⟩
    | "false" => some ⟨.atom (bool false) :: s.tokens, .between⟩
    | _ => none
  | _ => none

/-- A character between tokens. -/
def Scan.start? (tokens : List Token) (c : Char) : Option Scan :=
  if isSpace c then some ⟨tokens, .between⟩
  else if c == '"' then some ⟨tokens, .string []⟩
  else if c.isDigit || c == '-' then some ⟨tokens, .number [c]⟩
  else if c.isLower then some ⟨tokens, .word [c]⟩
  else
    match c with
    | '[' => some ⟨.openArray :: tokens, .between⟩
    | ']' => some ⟨.closeArray :: tokens, .between⟩
    | '\x7b' => some ⟨.openObject :: tokens, .between⟩
    | '\x7d' => some ⟨.closeObject :: tokens, .between⟩
    | ',' => some ⟨.comma :: tokens, .between⟩
    | ':' => some ⟨.colon :: tokens, .between⟩
    | _ => none

def hexValue? (c : Char) : Option Nat :=
  if c.isDigit then some (c.toNat - '0'.toNat)
  else if 'a' ≤ c && c ≤ 'f' then some (c.toNat - 'a'.toNat + 10)
  else if 'A' ≤ c && c ≤ 'F' then some (c.toNat - 'A'.toNat + 10)
  else none

/-- The four digits of an escape are read. -/
def Mode.ofUnit? (seen : List Char) (unit : Nat) : (lead : Option Nat) → Option Mode
  | none =>
    if 0xD800 ≤ unit && unit < 0xDC00 then some (.pair seen unit)
    else if 0xDC00 ≤ unit && unit < 0xE000 then none
    else some (.string (Char.ofNat unit :: seen))
  | some lead =>
    if 0xDC00 ≤ unit && unit < 0xE000 then
      some (.string (Char.ofNat (0x10000 + (lead - 0xD800) * 0x400 + (unit - 0xDC00)) :: seen))
    else none

/-- The mode after a character inside a string. -/
def Mode.inString? : Mode → Char → Option Mode
  | .string seen, c =>
    if c == '\\' then some (.escape seen)
    else if c.toNat < 0x20 then none
    else some (.string (c :: seen))
  | .escape seen, c =>
    match c with
    | '"' | '\\' | '/' => some (.string (c :: seen))
    | 'b' => some (.string ('\x08' :: seen))
    | 'f' => some (.string ('\x0c' :: seen))
    | 'n' => some (.string ('\n' :: seen))
    | 'r' => some (.string ('\r' :: seen))
    | 't' => some (.string ('\t' :: seen))
    | 'u' => some (.hex seen 4 0 none)
    | _ => none
  | .hex seen left value lead, c => do
    let digit ← hexValue? c
    let value := value * 16 + digit
    if left ≤ 1 then Mode.ofUnit? seen value lead else some (.hex seen (left - 1) value lead)
  | .pair seen lead, c => if c == '\\' then some (.pairEscape seen lead) else none
  | .pairEscape seen lead, c => if c == 'u' then some (.hex seen 4 0 (some lead)) else none
  | _, _ => none

/-- One character. -/
def Scan.step? (s : Scan) (c : Char) : Option Scan :=
  match s.mode with
  | .between => Scan.start? s.tokens c
  | .number seen =>
    if isNumberChar c then some { s with mode := .number (c :: seen) }
    else s.finish?.bind fun s => Scan.start? s.tokens c
  | .word seen =>
    if c.isLower then some { s with mode := .word (c :: seen) }
    else s.finish?.bind fun s => Scan.start? s.tokens c
  | .string seen =>
    if c == '"' then some ⟨.atom (str (String.ofList seen.reverse)) :: s.tokens, .between⟩
    else ((Mode.string seen).inString? c).map fun mode => { s with mode }
  | mode => (mode.inString? c).map fun mode => { s with mode }

/-- Cut a text into tokens. -/
def tokens? (cs : List Char) : Option (List Token) := do
  let s ← cs.foldlM Scan.step? {}
  let s ← s.finish?
  some s.tokens.reverse

/-- An array or object that is still open. -/
inductive Frame where
  | array (items : List Json)
  | object (members : List (String × Json)) (key : String)
  deriving Repr, Inhabited

/-- What may come next. -/
inductive Expect where
  | value
  /-- A value or the end of an array that has just begun. -/
  | firstItem
  /-- A key or the end of an object that has just begun. -/
  | firstKey
  | key
  | colon
  /-- A comma or the end of what is open. -/
  | more
  /-- Nothing: the value is complete. -/
  | nothing (value : Json)
  deriving Repr, Inhabited

/-- The builder's state: what is open, innermost first, and what may come next. -/
structure Build where
  stack : List Frame := []
  next : Expect := .value
  deriving Repr, Inhabited

/-- Greatest number of arrays and objects inside each other. -/
def maxDepth : Nat := 127

/-- Put a complete value where it belongs. -/
def Build.plug (stack : List Frame) (value : Json) : Build :=
  match stack with
  | [] => { next := .nothing value }
  | .array items :: rest => { stack := .array (value :: items) :: rest, next := .more }
  | .object members key :: rest =>
    { stack := .object (insert key value members) key :: rest, next := .more }

def Build.openArray? (stack : List Frame) : Option Build :=
  if stack.length < maxDepth then some { stack := .array [] :: stack, next := .firstItem } else none

def Build.openObject? (stack : List Frame) : Option Build :=
  if stack.length < maxDepth then
    some { stack := .object [] "" :: stack, next := .firstKey }
  else none

def Build.value? (stack : List Frame) : Token → Option Build
  | .openArray => Build.openArray? stack
  | .openObject => Build.openObject? stack
  | .atom value => some (Build.plug stack value)
  | _ => none

def Build.step? (b : Build) (t : Token) : Option Build :=
  match b.next, b.stack, t with
  | .value, stack, t => Build.value? stack t
  | .firstItem, .array _ :: rest, .closeArray => some (Build.plug rest (arr []))
  | .firstItem, stack, t => Build.value? stack t
  | .firstKey, .object _ _ :: rest, .closeObject => some (Build.plug rest (obj []))
  | .firstKey, .object members _ :: rest, .atom (.str key) =>
    some { b with stack := .object members key :: rest, next := .colon }
  | .key, .object members _ :: rest, .atom (.str key) =>
    some { b with stack := .object members key :: rest, next := .colon }
  | .colon, stack, .colon => some { b with stack, next := .value }
  | .more, .array items :: rest, .closeArray => some (Build.plug rest (arr items.reverse))
  | .more, .array items :: rest, .comma =>
    some { b with stack := .array items :: rest, next := .value }
  | .more, .object members _ :: rest, .closeObject => some (Build.plug rest (obj members))
  | .more, .object members key :: rest, .comma =>
    some { b with stack := .object members key :: rest, next := .key }
  | _, _, _ => none

/-- The value that a text writes. -/
def ofText? (s : String) : Option Json := do
  let tokens ← tokens? s.toList
  let b ← tokens.foldlM Build.step? {}
  match b.next with
  | .nothing value => some value
  | _ => none

end CodeSearch.Json
