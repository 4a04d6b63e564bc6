import CodeSearch.Symbol.Extract
import Mathlib.Data.List.Basic
import Mathlib.Tactic.Common

/-! # Stamps

The version, the time and the author of a symbol are copied from the version of the file that was
read, and nothing else of an extraction depends on them. Two versions of a file with the same tree
therefore have the same symbols up to stamps.
-/

namespace CodeSearch

open Syntax

/-- A symbol without its version, time and author. -/
def Symbol.unstamped (s : Symbol) : Symbol :=
  { s with unit := { s.unit with version := 0 }, modifiedAt := default, author := none }

/-- A version of a file of which only the path is told. -/
def SourceUnit.atPath (path : String) : SourceUnit :=
  { path, language := default, contentHash := "", version := 0, modifiedAt := default
    author := none }

namespace Extract

def Input.unstamped (i : Input) : Input :=
  { i with unit := .atPath i.unit.path }

def Found.unstamped (f : Found) : Found :=
  { f with symbols := f.symbols.map Symbol.unstamped }

def Visit.unstamped (v : Visit) : Visit :=
  { v with found := v.found.unstamped }

theorem map_modify_commute {α : Type} {view change : α → α} (l : List α) (n : Nat)
    (commute : ∀ a, view (change a) = change (view a)) :
    (l.modify n change).map view = (l.map view).modify n change := by
  refine List.ext_getElem? fun m => ?_
  simp only [List.getElem?_map, List.getElem?_modify]
  cases l[m]? with
  | none => rfl
  | some a =>
      by_cases here : n = m
      · simp [here, commute]
      · simp [here]

namespace Found

theorem enclosingId_unstamped (f : Found) (scopes : List Scope) :
    f.unstamped.enclosingId scopes = f.enclosingId scopes := by
  simp only [enclosingId, unstamped, List.getElem?_map, Option.map_map]
  rfl

theorem emit_unstamped (f : Found) (i : Input) (n : Node) (kind : SymbolKind)
    (name qualifiedName : String) (parent : Option SymbolId) (relations : List Relation)
    (shape : Option Shape) :
    (f.emit i n kind name qualifiedName parent relations shape).unstamped =
      f.unstamped.emit i.unstamped n kind name qualifiedName parent relations shape := by
  have ordinal : f.unstamped.ordinal kind qualifiedName = f.ordinal kind qualifiedName := by
    simp only [Found.ordinal, unstamped, List.countP_map]
    rfl
  simp only [emit, ordinal]
  simp only [unstamped, List.map_append, List.map_cons, List.map_nil]
  rfl

theorem relate_unstamped (f : Found) (number : Nat) (r : Relation) :
    (f.relate number r).unstamped = f.unstamped.relate number r := by
  simp only [relate, unstamped, Found.mk.injEq, and_true]
  refine map_modify_commute f.symbols number fun s => ?_
  by_cases has : s.relations.contains r
  · simp only [Symbol.unstamped, has, if_true]
  · simp only [Symbol.unstamped, has]
    rfl

theorem define_unstamped (f : Found) (i : Input) (scopes : List Scope) (t : Ast) (kind : SymbolKind)
    (name : String) :
    f.unstamped.define i.unstamped scopes t kind name =
      ((f.define i scopes t kind name).1.unstamped, (f.define i scopes t kind name).2) := by
  simp only [define, enclosingId_unstamped, ← emit_unstamped]
  have number : f.unstamped.symbols.length = f.symbols.length := List.length_map _
  cases (t.data.attributes.get? .owner).or (innermost scopes).owner with
  | none => rfl
  | some owner =>
      cases enclosing scopes with
      | none =>
          simp only [number]
          rfl
      | some _ => rfl

theorem call_unstamped (f : Found) (i : Input) (scopes : List Scope) (n : Node) (callee : String) :
    (f.call i scopes n callee).unstamped = f.unstamped.call i.unstamped scopes n callee := by
  simp only [call, enclosingId_unstamped]
  split
  · simp only [emit_unstamped, relate_unstamped]
  · simp only [emit_unstamped]

theorem imports_unstamped (f : Found) (i : Input) (scopes : List Scope) (n : Node)
    (targets : List String) :
    (targets.foldl (fun f x => f.importTarget i scopes n x) f).unstamped =
      targets.foldl (fun f x => f.importTarget i.unstamped scopes n x) f.unstamped := by
  induction targets generalizing f with
  | nil => rfl
  | cons target rest ih =>
      rw [List.foldl_cons, ih]
      simp only [importTarget, emit_unstamped, enclosingId_unstamped, List.foldl_cons]

end Found

theorem visit_unstamped (i : Input) (scopes : List Scope) (t : Ast) (f : Found) :
    visit i.unstamped scopes t f.unstamped = (visit i scopes t f).unstamped := by
  have number : f.unstamped.symbols.length = f.symbols.length := List.length_map _
  cases hk : symbolKind? t.data with
  | none =>
      simp only [visit, hk]
      split
      · rfl
      · rfl
  | some kind =>
      cases kind with
      | importing =>
          simp only [visit, hk, ← Found.imports_unstamped]
          rfl
      | call =>
          simp only [visit, hk, ← Found.call_unstamped]
          split
          · rfl
          · rfl
      | var =>
          simp only [visit, hk, Found.variableOf, Found.enclosingId_unstamped,
            ← Found.emit_unstamped]
          split
          · split
            · rfl
            · rfl
          · rfl
      | function | type =>
          simp only [visit, hk, Found.define_unstamped, number]
          split
          · rfl
          · rfl

theorem walk_unstamped (i : Input) (steps : List Step) (scopes : List Scope) (f : Found) :
    walk i.unstamped steps scopes f.unstamped = (walk i steps scopes f).unstamped := by
  fun_induction walk i steps scopes f with
  | case1 => rw [walk]
  | case2 scopes f rest ih => rw [walk, ih]
  | case3 scopes f t rest v below noScope ih =>
      rw [walk]
      simp only [visit_unstamped, Visit.unstamped]
      rw [noScope]
      exact ih
  | case4 scopes f t rest v below scope hasScope ih =>
      rw [walk]
      simp only [visit_unstamped, Visit.unstamped]
      rw [hasScope]
      exact ih

/-! ## After the walk -/

namespace Found

theorem typeNamed?_unstamped (f : Found) (owner : String) :
    f.unstamped.typeNamed? owner = f.typeNamed? owner := by
  simp only [typeNamed?, unstamped, List.zipIdx_map, List.filter_map, List.find?_map,
    Option.map_map]
  rfl

theorem adopt_unstamped (f : Found) (symbols : List Symbol) (member : Nat × String) :
    f.unstamped.adopt (symbols.map Symbol.unstamped) member =
      (f.adopt symbols member).map Symbol.unstamped := by
  have type : f.unstamped.symbols = f.symbols.map Symbol.unstamped := rfl
  simp only [adopt, typeNamed?_unstamped, type]
  cases f.typeNamed? member.2 with
  | none => rfl
  | some number =>
      simp only [Option.bind_some, List.getElem?_map]
      cases f.symbols[number]? with
      | none => rfl
      | some type =>
          have commute (s : Symbol) : Symbol.unstamped { s with parent := some type.id } =
              { s.unstamped with parent := some type.id } := rfl
          exact (map_modify_commute symbols member.1 commute).symm

theorem derive_unstamped (f g : Found) (base : String × String) :
    f.unstamped.derive g.unstamped base = (f.derive g base).unstamped := by
  simp only [derive, typeNamed?_unstamped]
  cases f.typeNamed? base.1 with
  | none => rfl
  | some number => exact (relate_unstamped g number _).symm

end Found

theorem attach_unstamped (f : Found) :
    attach f.unstamped = (attach f).map Symbol.unstamped := by
  have owned : f.owned.foldl f.unstamped.adopt (f.symbols.map Symbol.unstamped) =
      (f.owned.foldl f.adopt f.symbols).map Symbol.unstamped :=
    List.foldl_hom _ f.adopt_unstamped
  have bases (g : Found) :
      f.bases.foldl f.unstamped.derive g.unstamped = (f.bases.foldl f.derive g).unstamped :=
    List.foldl_hom Found.unstamped f.derive_unstamped
  calc
    attach f.unstamped
      = (f.bases.foldl f.unstamped.derive
          { symbols := f.owned.foldl f.unstamped.adopt (f.symbols.map Symbol.unstamped) }).symbols :=
        rfl
    _ = (f.bases.foldl f.derive { symbols := f.owned.foldl f.adopt f.symbols }).unstamped.symbols := by
        rw [owned]
        exact congrArg Found.symbols (bases { symbols := f.owned.foldl f.adopt f.symbols })

theorem resolveAll_unstamped (symbols : List Symbol) :
    resolveAll (symbols.map Symbol.unstamped) = (resolveAll symbols).map Symbol.unstamped := by
  have named (kind : SymbolKind) (name : String) :
      firstNamed? (symbols.map Symbol.unstamped) kind name = firstNamed? symbols kind name := by
    simp only [firstNamed?, List.find?_map, Option.map_map]
    rfl
  have relation (r : Relation) : resolve (symbols.map Symbol.unstamped) r = resolve symbols r := by
    simp only [resolve, named]
  simp only [resolveAll, List.map_map, List.map_inj_left, Function.comp_apply]
  intro s _
  simp only [Symbol.unstamped, funext relation]

end Extract

/-- The symbols of a parsed source depend on the version of its file only by their stamps. -/
theorem Syntax.Parsed.symbols_unstamped (p : Parsed) (unit : SourceUnit) (snippetChars : Nat) :
    (p.symbols unit snippetChars).map Symbol.unstamped =
      p.symbols (.atPath unit.path) snippetChars := by
  simp only [Parsed.symbols, ← Extract.resolveAll_unstamped, ← Extract.attach_unstamped, Extract.ofAst]
  rw [← Extract.walk_unstamped]
  rfl

end CodeSearch
