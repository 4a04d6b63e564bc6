import CodeSearch.Json.Basic
import CodeSearch.Time.Rfc3339

/-! # Reading members

What is wanted from a value that was given from outside is read member by member and item by item.
A member that is missing is null; one that does not fit is passed over like a missing one.
-/

namespace CodeSearch.Json

open Time (Instant)

def member (j : Json) (key : String) : Json :=
  (j.get? key).getD null

def text? (j : Json) (key : String) : Option String :=
  (j.member key).str?

def textOr (j : Json) (key default : String) : String :=
  (j.text? key).getD default

def text (j : Json) (key : String) : String :=
  j.textOr key ""

def natOr (j : Json) (key : String) (default : Nat) : Nat :=
  (j.member key).nat?.getD default

def nat (j : Json) (key : String) : Nat :=
  j.natOr key 0

def flagOr (j : Json) (key : String) (default : Bool) : Bool :=
  (j.member key).bool?.getD default

/-- The items of an array; what is none has none. -/
def items (j : Json) : List Json :=
  j.arr?.getD []

def list (j : Json) (key : String) : List Json :=
  (j.member key).items

def texts (j : Json) (key : String) : List String :=
  (j.list key).map fun item => item.str?.getD ""

def time? (j : Json) (key : String) : Option Instant :=
  (j.text? key).bind Instant.ofRfc3339?

/-- The item of an array at a position. -/
def item (j : Json) (i : Nat) : Json :=
  j.items[i]?.getD null

def textAt? (j : Json) (i : Nat) : Option String :=
  (j.item i).str?

def textAt (j : Json) (i : Nat) : String :=
  (j.textAt? i).getD ""

def natAt (j : Json) (i : Nat) : Nat :=
  (j.item i).nat?.getD 0

/-- A float; one that is not finite is given by a word. -/
def anyFloat? : Json → Option Float
  | str "nan" => some (0.0 / 0.0)
  | str "inf" => some (1.0 / 0.0)
  | str "-inf" => some (-1.0 / 0.0)
  | j => j.float?

/-- What a value is written as, or null. -/
def ofOption {α : Type} (write : α → Json) : Option α → Json
  | none => null
  | some a => write a

def ofTexts (texts : List String) : Json :=
  arr (texts.map str)

def ofNat (n : Nat) : Json :=
  int n

def ofTime (t : Instant) : Json :=
  str t.toRfc3339

end CodeSearch.Json
