import CodeSearch.Text.CaseTable
import CodeSearch.Text.LetterTable

/-! # Letter case and character classes

Case and classes follow the Unicode properties. Lowercasing a text is context-sensitive for one
letter only: a capital sigma that ends a word becomes the final form.
-/

namespace CodeSearch.Text

/-- Whether a code point is in one of the runs of a table. -/
def Table.holds (table : List (Nat × Nat × Nat)) (n : Nat) : Bool :=
  table.any fun (first, last, stride) => first ≤ n && n ≤ last && (n - first) % stride == 0

/-- The property Uppercase. -/
def isUpper (c : Char) : Bool :=
  if c.toNat < 128 then c.isUpper else Table.holds Table.uppercase c.toNat

/-- The property Lowercase. -/
def isLower (c : Char) : Bool :=
  if c.toNat < 128 then c.isLower else Table.holds Table.lowercase c.toNat

/-- Letters, in the wide sense of the property Alphabetic, and all kinds of numbers. -/
def isAlphanumeric (c : Char) : Bool :=
  if c.toNat < 128 then c.isAlphanum else Table.holds Table.alphanumeric c.toNat

/-- Letters, marks, decimal digits and connectors: the characters of words. -/
def isWordChar (c : Char) : Bool :=
  if c.toNat < 128 then c.isAlphanum || c == '_' else Table.holds Table.word c.toNat

/-- The lowercase form of one character outside of any context. -/
def lowerChar (c : Char) : List Char :=
  if c.toNat < 128 then [c.toLower]
  else if c.toNat = 0x130 then ['i', '\u0307']
  else
    match Table.lowering.find? fun (first, last, stride, _) =>
        first ≤ c.toNat && c.toNat ≤ last && (c.toNat - first) % stride == 0 with
    | some (_, _, _, shift) => [Char.ofNat ((c.toNat : Int) + shift).toNat]
    | none => [c]

/-- Whether the first character that is not case-ignorable is cased. -/
def meetsCased (cs : List Char) : Bool :=
  match cs.dropWhile fun c => Table.holds Table.caseIgnorable c.toNat with
  | [] => false
  | c :: _ => Table.holds Table.cased c.toNat

/-- Lowercase `cs`, which follows the characters of `before` (nearest first). -/
def lowerAfter (before : List Char) : List Char → List Char
  | [] => []
  | c :: cs =>
    let form :=
      if c = 'Σ' then [if meetsCased before && !meetsCased cs then 'ς' else 'σ'] else lowerChar c
    form ++ lowerAfter (c :: before) cs

/-- The lowercase form of a text. -/
def lower (s : String) : String :=
  String.ofList (lowerAfter [] s.toList)

/-- The text with its ASCII letters in lower case. -/
def asciiLower (s : String) : String :=
  String.ofList (s.toList.map Char.toLower)

def eqIgnoringAsciiCase (a b : String) : Bool :=
  asciiLower a == asciiLower b

end CodeSearch.Text
