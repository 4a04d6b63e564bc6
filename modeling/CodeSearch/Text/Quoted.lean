/-! # Quoted text

Text between quotes, in which quotes, backslashes and characters that cannot be seen are escaped.
-/

namespace CodeSearch.Text

/-- Ranges of characters outside ASCII that cannot be seen: controls, format characters, spaces,
    separators, marks that join the character before, and private ones. -/
def unseen : List (Nat × Nat) :=
  [(0x80, 0xa0), (0xad, 0xad), (0x300, 0x36f), (0x483, 0x489), (0x600, 0x605), (0x61c, 0x61c),
   (0x6dd, 0x6dd), (0x70f, 0x70f), (0x890, 0x891), (0x8e2, 0x8e2), (0x1680, 0x1680),
   (0x180b, 0x180f), (0x1ab0, 0x1ace), (0x1dc0, 0x1dff), (0x2000, 0x200f), (0x2028, 0x202f),
   (0x205f, 0x206f), (0x20d0, 0x20f0), (0x3000, 0x3000), (0xd800, 0xf8ff), (0xfe00, 0xfe0f),
   (0xfe20, 0xfe2f), (0xfeff, 0xfeff), (0xfff0, 0xfffb), (0x110bd, 0x110bd), (0x110cd, 0x110cd),
   (0x13430, 0x13440), (0x1bca0, 0x1bca3), (0x1d173, 0x1d17a), (0xe0000, 0x10ffff)]

/-- Whether a character stands for itself between quotes. -/
def isSeen (c : Char) : Bool :=
  let n := c.toNat
  if n < 128 then 32 ≤ n && n < 127 else !unseen.any fun (first, last) => first ≤ n && n ≤ last

/-- A character between quotes. -/
def escaped (c : Char) : List Char :=
  match c with
  | '\t' => ['\\', 't']
  | '\r' => ['\\', 'r']
  | '\n' => ['\\', 'n']
  | '"' => ['\\', '"']
  | '\\' => ['\\', '\\']
  | _ =>
    if c.toNat = 0 then ['\\', '0']
    else if isSeen c then [c]
    else '\\' :: 'u' :: '\x7b' :: (Nat.toDigits 16 c.toNat ++ ['\x7d'])

/-- A text between quotes. -/
def quoted (s : String) : String :=
  String.ofList ('"' :: s.toList.flatMap escaped ++ ['"'])

end CodeSearch.Text
