/-! # Slices of text by byte offsets

Offsets count the bytes of the UTF-8 form. A slice exists when both ends fall between two
characters of the text.
-/

namespace CodeSearch.Text

/-- Number of bytes of the UTF-8 form. -/
def byteLength (cs : List Char) : Nat :=
  cs.foldl (fun n c => n + c.utf8Size) 0

/-- The rest after the first `n` bytes, when they end between two characters. -/
def dropBytes? : Nat → List Char → Option (List Char)
  | 0, cs => some cs
  | _ + 1, [] => none
  | n + 1, c :: cs => if c.utf8Size ≤ n + 1 then dropBytes? (n + 1 - c.utf8Size) cs else none

/-- The first `n` bytes, when they end between two characters. -/
def takeBytes? : Nat → List Char → Option (List Char)
  | 0, _ => some []
  | _ + 1, [] => none
  | n + 1, c :: cs =>
    if c.utf8Size ≤ n + 1 then (takeBytes? (n + 1 - c.utf8Size) cs).map (c :: ·) else none

/-- The bytes from `start` up to `stop`. -/
def slice? (text : String) (start stop : Nat) : Option String :=
  if start ≤ stop then
    ((dropBytes? start text.toList).bind (takeBytes? (stop - start))).map String.ofList
  else none

/-- The bytes from `start` up to `stop`, or nothing where an end splits a character. -/
def slice (text : String) (start stop : Nat) : String :=
  (slice? text start stop).getD ""

end CodeSearch.Text
