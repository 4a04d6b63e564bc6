/-! # JSON values -/

namespace CodeSearch

/-- A JSON value. An integer that fits into 64 bits, signed or unsigned, is kept exactly; any other
    number is a float. Members of an object have distinct keys in ascending order. -/
inductive Json where
  | null
  | bool (b : Bool)
  | int (n : Int)
  | float (x : Float)
  | str (s : String)
  | arr (items : List Json)
  | obj (members : List (String × Json))
  deriving Repr, Inhabited

namespace Json

/-- Put a member where its key belongs; an earlier member of the key is replaced. -/
def insert (key : String) (value : Json) : List (String × Json) → List (String × Json)
  | [] => [(key, value)]
  | (k, v) :: rest =>
    if key < k then (key, value) :: (k, v) :: rest
    else if key = k then (key, value) :: rest
    else (k, v) :: insert key value rest

/-- An object of the given members. -/
def ofMembers (members : List (String × Json)) : Json :=
  obj (members.foldl (fun sorted (key, value) => insert key value sorted) [])

/-- The member of an object under a key. -/
def get? (key : String) : Json → Option Json
  | obj members => (members.find? (·.1 == key)).map (·.2)
  | _ => none

/-- Whether there is no value. -/
def isNull : Json → Bool
  | null => true
  | _ => false

/-- An unsigned integer of 64 bits. -/
def nat? : Json → Option Nat
  | int n => if 0 ≤ n then some n.toNat else none
  | _ => none

def str? : Json → Option String
  | str s => some s
  | _ => none

def bool? : Json → Option Bool
  | bool b => some b
  | _ => none

def arr? : Json → Option (List Json)
  | arr items => some items
  | _ => none

/-- A number of any kind as a float. -/
def float? : Json → Option Float
  | int n => some (Float.ofInt n)
  | float x => some x
  | _ => none

end Json

end CodeSearch
