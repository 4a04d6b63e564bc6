/-! # Splitting text

A split cuts at every character of a class, so a text with `n` of them has `n + 1` pieces.
-/

namespace CodeSearch.Text

/-- The pieces between the characters that satisfy `p`. -/
def splitWhere (p : Char → Bool) : List Char → List (List Char)
  | [] => [[]]
  | c :: cs =>
    if p c then [] :: splitWhere p cs
    else match splitWhere p cs with
      | [] => [[c]]
      | piece :: pieces => (c :: piece) :: pieces

/-- The pieces of a text between the occurrences of a character. -/
def split (s : String) (mark : Char) : List String :=
  (splitWhere (· == mark) s.toList).map String.ofList

/-- Cut at the first character that satisfies `p`, which is dropped. -/
def cutAt? (p : Char → Bool) : List Char → Option (List Char × List Char)
  | [] => none
  | c :: cs => if p c then some ([], cs) else (cutAt? p cs).map fun (a, b) => (c :: a, b)

/-- Cut a text at the first occurrence of a character. -/
def cut? (s : String) (mark : Char) : Option (String × String) :=
  (cutAt? (· == mark) s.toList).map fun (a, b) => (String.ofList a, String.ofList b)

/-- What follows `start` in `cs`, when `cs` begins with it. -/
def after? : (start cs : List Char) → Option (List Char)
  | [], cs => some cs
  | _ :: _, [] => none
  | a :: as, c :: cs => if a = c then after? as cs else none

/-- What follows `start` in a text that begins with it. -/
def stripStart? (s start : String) : Option String :=
  (after? start.toList s.toList).map String.ofList

/-- What precedes `stop` in a text that ends with it. -/
def stripEnd? (s stop : String) : Option String :=
  (after? stop.toList.reverse s.toList.reverse).map fun cs => String.ofList cs.reverse

/-- Cut at the first occurrence of `part`, which is dropped. -/
def cutOnPart? (part : List Char) : List Char → Option (List Char × List Char)
  | [] => if part.isEmpty then some ([], []) else none
  | c :: cs =>
    match after? part (c :: cs) with
    | some rest => some ([], rest)
    | none => (cutOnPart? part cs).map fun (a, b) => (c :: a, b)

/-- Cut a text at the first occurrence of another one. -/
def cutOn? (s part : String) : Option (String × String) :=
  (cutOnPart? part.toList s.toList).map fun (a, b) => (String.ofList a, String.ofList b)

/-- Drop `start` from the beginning as often as it is there. -/
def dropAll (start : List Char) : (fuel : Nat) → List Char → List Char
  | 0, cs => cs
  | fuel + 1, cs =>
    match after? start cs with
    | some rest => dropAll start fuel rest
    | none => cs

/-- A text without `start` at its beginning, however often it stands there. -/
def trimStartText (s start : String) : String :=
  let cs := s.toList
  String.ofList (dropAll start.toList cs.length cs)

/-- The text with `new` for every `old`. -/
def replaceChar (s : String) (old new : Char) : String :=
  String.ofList (s.toList.map fun c => if c == old then new else c)

/-- Whether `part` occurs in `cs`. -/
def occursIn (part : List Char) : List Char → Bool
  | [] => part.isEmpty
  | c :: cs => (after? part (c :: cs)).isSome || occursIn part cs

/-- Whether a text holds another one. -/
def contains (s part : String) : Bool :=
  occursIn part.toList s.toList

/-- Whether a text begins with another one. -/
def startsWith (s start : String) : Bool :=
  (after? start.toList s.toList).isSome

/-- Whether a text ends with another one. -/
def endsWith (s stop : String) : Bool :=
  (after? stop.toList.reverse s.toList.reverse).isSome

/-- A line that was ended by a line feed, without a carriage return before it. -/
private def withoutReturn (line : List Char) : List Char :=
  match line.reverse with
  | '\r' :: rest => rest.reverse
  | _ => line

/-- The pieces between line feeds as lines: a carriage return before a line feed belongs to the
    line end, and what follows the last line feed is a line only when it is not empty. -/
def linesOf : List (List Char) → List (List Char)
  | [] => []
  | [last] => if last.isEmpty then [] else [last]
  | line :: rest => withoutReturn line :: linesOf rest

def lines (s : String) : List String :=
  (linesOf (splitWhere (· == '\n') s.toList)).map String.ofList

/-- The first `n` characters. -/
def takeChars (n : Nat) (s : String) : String :=
  String.ofList (s.toList.take n)

/-- The texts joined with `between` between each two. -/
def join (between : String) : List String → String
  | [] => ""
  | [s] => s
  | s :: rest => s ++ between ++ join between rest

end CodeSearch.Text
