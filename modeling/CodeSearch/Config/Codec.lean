import CodeSearch.Decimal.Reader
import CodeSearch.Json.Basic
import CodeSearch.Score

/-! # Codecs

A codec says how a value is read and written as JSON. The codec of a record is put together from
its settings; members that are missing keep their defaults, and unknown ones are passed over.
-/

namespace CodeSearch

/-- How values are read and written. -/
structure Codec (α : Type) where
  read? : Json → Option α
  write : α → Json

structure Setting (σ : Type) where
  name : String
  read? : Json → σ → Option σ
  write : σ → Json

namespace Codec

/-- Natural numbers up to a bound. -/
def nat (bound : Nat) : Codec Nat :=
  { read? := fun j => j.nat?.filter (· ≤ bound)
    write := fun n => .int n }

/-- Natural numbers of 64 bits. -/
def word : Codec Nat :=
  nat (Nat.pow 2 64 - 1)

def bool : Codec Bool :=
  { read? := Json.bool?, write := .bool }

def text : Codec String :=
  { read? := Json.str?, write := .str }

def number : Codec Float :=
  { read? := Json.float?, write := .float }

/-- Numbers in single precision. -/
def score : Codec Score :=
  { read? := fun j =>
      match j with
      | .int n => some (Decimal.Literal.finite (n < 0) ⟨n.natAbs, 0⟩).toFloat32
      | .float x => some x.toFloat32
      | _ => none
    write := fun x => .float x.toFloat }

/-- One of several values by its name. A name can also be given as the only key of an object
    without a value. -/
def choice {α : Type} (all : List α) (name : α → String) : Codec α :=
  let named (s : String) := all.find? (name · == s)
  { read? := fun j =>
      match j with
      | .str s => named s
      | .obj [(s, .null)] => named s
      | _ => none
    write := fun a => .str (name a) }

def list {α : Type} (c : Codec α) : Codec (List α) :=
  { read? := fun j => j.arr?.bind (·.mapM c.read?)
    write := fun as => .arr (as.map c.write) }

def readMembers {σ : Type} (settings : List (Setting σ)) (start : σ)
    (members : List (String × Json)) : Option σ :=
  members.foldlM (fun s (key, v) =>
    match settings.find? (·.name == key) with
    | some setting => setting.read? v s
    | none => some s) start

/-- Read items into the settings of the same places. -/
def readItems {σ : Type} (start : σ) : List (Setting σ) → List Json → Option σ
  | _, [] => some start
  | [], _ :: _ => none
  | setting :: settings, v :: vs => do readItems (← setting.read? v start) settings vs

/-- A record: an object of its settings, or an array of the first ones in order. -/
def record {σ : Type} (settings : List (Setting σ)) (start : σ) : Codec σ :=
  { read? := fun j =>
      match j with
      | .obj members => readMembers settings start members
      | .arr vs => readItems start settings vs
      | _ => none
    write := fun s => .obj (settings.map fun setting => (setting.name, setting.write s)) }

/-- A setting whose values have a codec. -/
def setting {σ α : Type} (c : Codec α) (name : String) (get : σ → α) (set : σ → α → σ) :
    Setting σ :=
  { name
    read? := fun j s => (c.read? j).map (set s)
    write := fun s => c.write (get s) }

end Codec

end CodeSearch
