/-! # Blank characters and trimming

A character is blank when it has the Unicode property White_Space. Trimming takes blank
characters, or any other class, from one end or both.
-/

namespace CodeSearch.Text

/-- The Unicode property White_Space. -/
def isBlank (c : Char) : Bool :=
  let n := c.toNat
  (9 ≤ n && n ≤ 13) || n == 0x20 || n == 0x85 || n == 0xa0 || n == 0x1680 ||
    (0x2000 ≤ n && n ≤ 0x200a) || n == 0x2028 || n == 0x2029 || n == 0x202f ||
    n == 0x205f || n == 0x3000

/-- Drop the longest end whose characters satisfy `p`. -/
def dropEndWhile (p : Char → Bool) (cs : List Char) : List Char :=
  (cs.reverse.dropWhile p).reverse

/-- Drop the characters that satisfy `p` from both ends. -/
def strip (p : Char → Bool) (cs : List Char) : List Char :=
  dropEndWhile p (cs.dropWhile p)

/-- Without the blank characters at both ends. -/
def trim (s : String) : String :=
  String.ofList (strip isBlank s.toList)

/-- Without the characters of class `p` at the start. -/
def trimStartOf (p : Char → Bool) (s : String) : String :=
  String.ofList (s.toList.dropWhile p)

/-- Without the characters of class `p` at both ends. -/
def trimOf (p : Char → Bool) (s : String) : String :=
  String.ofList (strip p s.toList)

/-- Whether nothing but blank characters is there. -/
def isAllBlank (s : String) : Bool :=
  s.toList.all isBlank

end CodeSearch.Text
