import CodeSearch.Json.Basic
import CodeSearch.Keyed

/-! # TOML tables

A table is defined once: by a header, by dotted keys, or by the headers of tables inside it. Only
a table that headers inside it brought about can get a header of its own later, and only one that
dotted keys brought about can be added to by dotted keys.
-/

namespace CodeSearch.Toml

/-- What brought a table about. -/
inductive Origin where
  | header
  /-- The header of a table inside it. -/
  | inner
  | dotted
  deriving Repr, DecidableEq, Inhabited

/-- What stands under a key. -/
inductive Entry where
  | value (v : Json)
  | table (origin : Origin) (members : List (String × Entry))
  /-- Tables of one header, the last one last. -/
  | tables (elements : List (List (String × Entry)))
  deriving Inhabited

abbrev Members := Keyed String Entry

/-- Change the table that a key leads to. A new one is of the given origin; the last one counts of
    several tables. -/
def Members.inside (ms : Members) (key : String) (created : Origin)
    (change : Origin → Members → Option Members) : Option Members :=
  match Keyed.get? ms key with
  | none => do pure (Keyed.put ms key (.table created (← change created [])))
  | some (.table origin inner) => do pure (Keyed.put ms key (.table origin (← change origin inner)))
  | some (.tables elements) =>
    match elements.reverse with
    | [] => none
    | last :: before => do
      pure (Keyed.put ms key (.tables (before.reverse ++ [← change .header last])))
  | some (.value _) => none

/-- Put a value under a dotted key. -/
def Members.assign (ms : Members) (v : Json) : (path : List String) → Option Members
  | [] => none
  | [key] => if Keyed.has ms key then none else some (Keyed.put ms key (.value v))
  | key :: next :: rest =>
    match Keyed.get? ms key with
    | some (.tables _) =>
      if rest.isEmpty then none
      else ms.inside key .dotted fun _ inner => Members.assign inner v (next :: rest)
    | _ =>
      ms.inside key .dotted fun origin inner =>
        if origin == .dotted || (origin == .inner && !rest.isEmpty) then
          Members.assign inner v (next :: rest)
        else none

/-- Define a table by its header. -/
def Members.define (ms : Members) : (path : List String) → Option Members
  | [] => none
  | [key] =>
    match Keyed.get? ms key with
    | none => some (Keyed.put ms key (.table .header []))
    | some (.table .inner inner) => some (Keyed.put ms key (.table .header inner))
    | _ => none
  | key :: next :: rest => ms.inside key .inner fun _ inner => Members.define inner (next :: rest)

/-- Add a table to those of one header. -/
def Members.append (ms : Members) : (path : List String) → Option Members
  | [] => none
  | [key] =>
    match Keyed.get? ms key with
    | none => some (Keyed.put ms key (.tables [[]]))
    | some (.tables elements) => some (Keyed.put ms key (.tables (elements ++ [[]])))
    | _ => none
  | key :: next :: rest => ms.inside key .inner fun _ inner => Members.append inner (next :: rest)

/-- Put a value under a dotted key of the table that a header defined. -/
def Members.assignIn (ms : Members) (v : Json) (key : List String) :
    (table : List String) → Option Members
  | [] => ms.assign v key
  | name :: rest => ms.inside name .inner fun _ inner => Members.assignIn inner v key rest

mutual

def Entry.toJson : Entry → Json
  | .value v => v
  | .table _ members => .ofMembers (Entry.toMembers members)
  | .tables elements => .arr (Entry.toItems elements)

/-- The values of the members of a table. -/
def Entry.toMembers : List (String × Entry) → List (String × Json)
  | [] => []
  | (key, e) :: rest => (key, e.toJson) :: Entry.toMembers rest

/-- The values of several tables. -/
def Entry.toItems : List (List (String × Entry)) → List Json
  | [] => []
  | members :: rest => .ofMembers (Entry.toMembers members) :: Entry.toItems rest

end

/-- The value of a table. -/
def Members.toJson (ms : Members) : Json :=
  .ofMembers (Entry.toMembers ms)

end CodeSearch.Toml
