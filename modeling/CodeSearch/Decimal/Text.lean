import CodeSearch.Decimal.Shortest

/-! # Floats as text

Two ways to write the shortest decimal of a float: in full, and with an exponent where the number
is very large or very small.
-/

namespace CodeSearch.Decimal

def digitsOf (n : Nat) : List Char :=
  Nat.toDigits 10 n

def zeros (n : Nat) : List Char :=
  List.replicate n '0'

/-- A decimal without an exponent; a whole number has no point. -/
def Scientific.plain (x : Scientific) : List Char :=
  let digits := digitsOf x.digits
  let point : Int := digits.length + x.exponent
  if 0 ≤ x.exponent then digits ++ zeros x.exponent.toNat
  else if 0 < point then digits.take point.toNat ++ '.' :: digits.drop point.toNat
  else '0' :: '.' :: zeros (-point).toNat ++ digits

def signOf (negative : Bool) : List Char :=
  if negative then ['-'] else []

/-- A float in full, as it stands in messages. -/
def Parts.plain : Parts → String
  | notANumber => "NaN"
  | infinite negative => String.ofList (signOf negative ++ ['i', 'n', 'f'])
  | finite negative x =>
    String.ofList (signOf negative ++ if x.digits = 0 then ['0'] else x.plain)

/-- A float in full, of which a whole number has the fraction `.0`. -/
def Parts.plainWithPoint : Parts → String
  | notANumber => "nan"
  | infinite negative => String.ofList (signOf negative ++ ['i', 'n', 'f'])
  | finite negative x =>
    if x.digits = 0 then String.ofList (signOf negative ++ ['0', '.', '0'])
    else if 0 ≤ x.exponent then String.ofList (signOf negative ++ x.plain ++ ['.', '0'])
    else String.ofList (signOf negative ++ x.plain)

/-- An exponent, with its sign and at least two digits. -/
def exponentText (e : Int) : List Char :=
  let digits := digitsOf e.natAbs
  (if e < 0 then '-' else '+') :: (zeros (2 - digits.length) ++ digits)

def Scientific.withExponent (x : Scientific) : List Char :=
  let digits := digitsOf x.digits
  let tail := 'e' :: exponentText (x.exponent + digits.length - 1)
  match digits with
  | [] => tail
  | [d] => d :: tail
  | d :: rest => d :: '.' :: rest ++ tail

/-- A float as a number of a data format: in full from five zeros after the point up to sixteen
    digits before it, and with an exponent beyond. There is no number for what is not finite. -/
def Parts.number? : Parts → Option String
  | notANumber => none
  | infinite _ => none
  | finite negative x =>
    let point : Int := (digitsOf x.digits).length + x.exponent
    let body :=
      if x.digits = 0 then ['0', '.', '0']
      else if 0 ≤ x.exponent && point ≤ 16 then x.plain ++ ['.', '0']
      else if -5 < point && point ≤ 16 then x.plain
      else x.withExponent
    some (String.ofList (signOf negative ++ body))

end CodeSearch.Decimal
