import CodeSearch.Decimal.Reader
import CodeSearch.Json.Basic
import CodeSearch.Time.Rfc3339

/-! # TOML scalars

Strings come in four forms, of one or of several lines, with escapes or without. Everything else
that is not an array or a table is one word: a truth value, a number, or a date or time.
-/

namespace CodeSearch.Toml

open Time (Instant)

/-- A reader takes a value off the front of a text and gives the rest. -/
abbrev Reader (α : Type) := List Char → Option (α × List Char)

def isBlank (c : Char) : Bool :=
  c == ' ' || c == '\t'

/-- Whether comments and strings may hold the character as it is. -/
def isPlain (c : Char) : Bool :=
  c == '\t' || (32 ≤ c.toNat && c.toNat != 127)

/-- What follows a line end. -/
def newline? : List Char → Option (List Char)
  | '\n' :: cs => some cs
  | '\r' :: '\n' :: cs => some cs
  | _ => none

/-! ## Strings -/

/-- What a backslash and a letter stand for. -/
def escaped? (c : Char) : Option Char :=
  match c with
  | 'b' => some (Char.ofNat 8)
  | 't' => some '\t'
  | 'n' => some '\n'
  | 'f' => some (Char.ofNat 12)
  | 'r' => some '\r'
  | '"' => some '"'
  | '\\' => some '\\'
  | _ => none

/-- The value of a digit in bases up to sixteen. -/
def digitValue? (c : Char) : Option Nat :=
  if c.isDigit then some (c.toNat - '0'.toNat)
  else if 'a' ≤ c && c ≤ 'f' then some (c.toNat - 'a'.toNat + 10)
  else if 'A' ≤ c && c ≤ 'F' then some (c.toNat - 'A'.toNat + 10)
  else none

/-- The character of a hexadecimal number. -/
def scalarValue? (digits : List Char) : Option Char := do
  let values ← digits.mapM digitValue?
  let n := values.foldl (fun n d => n * 16 + d) 0
  if n.isValidChar then some (Char.ofNat n) else none

/-- The rest of a string of one line with escapes. The characters read are in reverse. -/
def basic (seen : List Char) : Reader String
  | '"' :: cs => some (String.ofList seen.reverse, cs)
  | '\\' :: 'u' :: a :: b :: c :: d :: cs =>
    match scalarValue? [a, b, c, d] with
    | some char => basic (char :: seen) cs
    | none => none
  | '\\' :: 'U' :: a :: b :: c :: d :: e :: f :: g :: h :: cs =>
    match scalarValue? [a, b, c, d, e, f, g, h] with
    | some char => basic (char :: seen) cs
    | none => none
  | '\\' :: e :: cs =>
    match escaped? e with
    | some char => basic (char :: seen) cs
    | none => none
  | c :: cs => if isPlain c && c != '\\' then basic (c :: seen) cs else none
  | [] => none

/-- Whether only blank characters are left on the line. -/
def endsLine (cs : List Char) : Bool :=
  (newline? (cs.dropWhile isBlank)).isSome

/-- The rest of a string of several lines with escapes. A backslash at the end of a line takes away
    the line end and everything blank behind it, which is skipped then. -/
def basicLines (skipping : Bool) (seen : List Char) : Reader String
  | '"' :: '"' :: '"' :: '"' :: '"' :: cs => some (String.ofList ('"' :: '"' :: seen).reverse, cs)
  | '"' :: '"' :: '"' :: '"' :: cs => some (String.ofList ('"' :: seen).reverse, cs)
  | '"' :: '"' :: '"' :: cs => some (String.ofList seen.reverse, cs)
  | '\\' :: 'u' :: a :: b :: c :: d :: cs =>
    match scalarValue? [a, b, c, d] with
    | some char => basicLines false (char :: seen) cs
    | none => none
  | '\\' :: 'U' :: a :: b :: c :: d :: e :: f :: g :: h :: cs =>
    match scalarValue? [a, b, c, d, e, f, g, h] with
    | some char => basicLines false (char :: seen) cs
    | none => none
  | '\\' :: e :: cs =>
    match escaped? e with
    | some char => basicLines false (char :: seen) cs
    | none => if endsLine (e :: cs) then basicLines true seen (e :: cs) else none
  | '\r' :: '\n' :: cs => basicLines skipping (if skipping then seen else '\n' :: seen) cs
  | c :: cs =>
    if c == '\n' then basicLines skipping (if skipping then seen else '\n' :: seen) cs
    else if isBlank c && skipping then basicLines true seen cs
    else if isPlain c && c != '\\' then basicLines false (c :: seen) cs
    else none
  | [] => none

/-- The rest of a string of one line without escapes. -/
def literal (cs : List Char) : Option (String × List Char) :=
  let text := cs.takeWhile fun c => isPlain c && c != '\''
  match cs.drop text.length with
  | '\'' :: rest => some (String.ofList text, rest)
  | _ => none

/-- The rest of a string of several lines without escapes. -/
def literalLines (seen : List Char) : Reader String
  | '\'' :: '\'' :: '\'' :: '\'' :: '\'' :: cs =>
    some (String.ofList ('\'' :: '\'' :: seen).reverse, cs)
  | '\'' :: '\'' :: '\'' :: '\'' :: cs => some (String.ofList ('\'' :: seen).reverse, cs)
  | '\'' :: '\'' :: '\'' :: cs => some (String.ofList seen.reverse, cs)
  | '\r' :: '\n' :: cs => literalLines ('\n' :: seen) cs
  | c :: cs => if isPlain c || c == '\n' then literalLines (c :: seen) cs else none
  | [] => none

/-- Drop a line end at the start. -/
def dropNewline (cs : List Char) : List Char :=
  (newline? cs).getD cs

/-- A string in one of its four forms. -/
def string : Reader String
  | '"' :: '"' :: '"' :: cs => basicLines false [] (dropNewline cs)
  | '"' :: cs => basic [] cs
  | '\'' :: '\'' :: '\'' :: cs => literalLines [] (dropNewline cs)
  | '\'' :: cs => literal cs
  | _ => none

/-! ## Numbers -/

/-- Digits of a base, without the underscores that may stand between two of them. -/
def digits? (base : Nat) : List Char → Option (List Nat)
  | [] => none
  | [c] => (digitOf c).map fun d => [d]
  | c :: '_' :: cs => do pure ((← digitOf c) :: (← digits? base cs))
  | c :: cs => do pure ((← digitOf c) :: (← digits? base cs))
where
  digitOf (c : Char) : Option Nat := (digitValue? c).filter (· < base)

def numberOf (base : Nat) (digits : List Nat) : Nat :=
  digits.foldl (fun n d => n * base + d) 0

def sign : List Char → Bool × List Char
  | '-' :: cs => (true, cs)
  | '+' :: cs => (false, cs)
  | cs => (false, cs)

/-- Decimal digits that do not begin with a zero, unless it is the only one. -/
def whole? (cs : List Char) : Option (List Nat) :=
  (digits? 10 cs).filter fun digits => digits.length = 1 || digits.head? != some 0

/-- An integer of 64 bits. -/
def integer? (cs : List Char) : Option Int := do
  let n : Int ←
    match cs with
    | '0' :: 'x' :: cs => (digits? 16 cs).map fun digits => (numberOf 16 digits : Int)
    | '0' :: 'o' :: cs => (digits? 8 cs).map fun digits => (numberOf 8 digits : Int)
    | '0' :: 'b' :: cs => (digits? 2 cs).map fun digits => (numberOf 2 digits : Int)
    | _ =>
      let (negative, cs) := sign cs
      (whole? cs).map fun digits =>
        if negative then -(numberOf 10 digits : Int) else numberOf 10 digits
  if -(Nat.pow 2 63 : Int) ≤ n && n < Nat.pow 2 63 then some n else none

/-- The exponent of a float, 0 when it has none. -/
def exponent? : List Char → Option Int
  | [] => some 0
  | e :: cs =>
    if e == 'e' || e == 'E' then
      let (negative, cs) := sign cs
      (digits? 10 cs).map fun digits =>
        if negative then -(numberOf 10 digits : Int) else numberOf 10 digits
    else none

/-- A float that is finite. -/
def decimal? (cs : List Char) : Option Decimal.Scientific := do
  let isInner (c : Char) : Bool := c.isDigit || c == '_'
  let whole ← whole? (cs.takeWhile isInner)
  match cs.dropWhile isInner with
  | [] => none
  | '.' :: rest => do
    let fraction ← digits? 10 (rest.takeWhile isInner)
    let exponent ← exponent? (rest.dropWhile isInner)
    pure ⟨numberOf 10 (whole ++ fraction), exponent - fraction.length⟩
  | rest => do pure ⟨numberOf 10 whole, ← exponent? rest⟩

/-- A float. One that is too large has to be negative. -/
def float? (cs : List Char) : Option Float := do
  let (negative, body) := sign cs
  match String.ofList body with
  | "inf" => some (Decimal.Literal.infinite negative).toFloat
  | "nan" => some Decimal.Literal.notANumber.toFloat
  | _ =>
    let x := (Decimal.Literal.finite negative (← decimal? body)).toFloat
    if x.isInf && !negative then none else some x

/-! ## Dates and times -/

/-- Whether a text is a date or a time, or both. A date and a time without an offset, a date, and a
    time are completed to an instant. -/
def isDateOrTime (text : String) : Bool :=
  let timed := text.toList.any (· == ':')
  let dated := (text.toList.drop 4).head? == some '-'
  let isInstant (s : String) : Bool := (Instant.ofRfc3339? s).isSome
  if dated && timed then isInstant text || isInstant (text ++ "Z")
  else if dated then isInstant (text ++ "T00:00:00Z")
  else timed && isInstant ("2000-01-01T" ++ text ++ "Z")

/-- A date or time as a value: an object of one member. -/
def dateOrTime (text : String) : Json :=
  .obj [("datetime", .str text)]

/-- Whether a word may hold the character. -/
def isWordChar (c : Char) : Bool :=
  c.isAlphanum || c == '+' || c == '-' || c == '_' || c == '.' || c == ':'

def word? (cs : List Char) : Option Json :=
  let text := String.ofList cs
  match text with
  | "true" => some (.bool true)
  | "false" => some (.bool false)
  | _ =>
    match integer? cs with
    | some n => some (.int n)
    | none =>
      match float? cs with
      | some x => some (.float x)
      | none => if isDateOrTime text then some (dateOrTime text) else none

/-- One word, or a date and a time with a space between them. -/
def word : Reader Json := fun cs =>
  let first := cs.takeWhile isWordChar
  let rest := cs.dropWhile isWordChar
  let joined : Option (Json × List Char) :=
    match rest with
    | ' ' :: more =>
      let second := more.takeWhile isWordChar
      let text := String.ofList (first ++ 'T' :: second)
      if first.length = 10 && !second.isEmpty && isDateOrTime text then
        some (dateOrTime text, more.dropWhile isWordChar)
      else none
    | _ => none
  joined.or ((word? first).map fun v => (v, rest))

end CodeSearch.Toml
