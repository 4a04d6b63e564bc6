import CodeSearch.Proofs.Symbol.Listing
import Mathlib.Logic.Relation

/-! # The walk and the recursion over a tree

The walk keeps the trees that are still to be entered and the scopes that are still to be left on
one stack. Taken turn by turn it comes from any tree to what was behind it, with the scopes that it
had before, and has then found the entries that the recursion lists for the tree. Along the listing
every scope is one that a node above opened: a scope with a number is that of the definition with
this number.
-/

namespace CodeSearch.Extract

open Syntax

/-! ## Turn by turn -/

/-- The state of a walk before one of its turns. -/
structure Walking where
  steps : List Step
  scopes : List Scope
  found : Found

namespace Walking

/-- One turn: a scope is left, or a node visited and the nodes below it put before what is to be
    done next, with the scope that it opens to be left behind them. -/
def turn (i : Input) (w : Walking) : Option Walking :=
  match w.steps with
  | [] => none
  | .leave :: rest => some ⟨rest, w.scopes.tail, w.found⟩
  | .enter t :: rest =>
    let v := visit i w.scopes t w.found
    let below := if v.descends then t.children.map Step.enter else []
    match v.scope with
    | none => some ⟨below ++ rest, w.scopes, v.found⟩
    | some scope => some ⟨below ++ .leave :: rest, scope :: w.scopes, v.found⟩

/-- Some turns lead from one state to another one. -/
def Runs (i : Input) : Walking → Walking → Prop :=
  Relation.ReflTransGen fun before after => before.turn i = some after

/-- The walk over a tree before its first turn. -/
def start (t : Ast) : Walking :=
  ⟨t.children.map .enter, [{ kind := .file }], {}⟩

variable {i : Input}

theorem walk_turn {before after : Walking} (h : before.turn i = some after) :
    walk i before.steps before.scopes before.found =
      walk i after.steps after.scopes after.found := by
  obtain ⟨steps, scopes, f⟩ := before
  cases steps with
  | nil => cases h
  | cons step rest =>
      cases step with
      | leave =>
          cases h
          rw [walk]
      | enter t =>
          simp only [turn] at h
          cases opened : (visit i scopes t f).scope with
          | none =>
              simp only [opened] at h
              cases h
              rw [walk]
              simp only [opened]
          | some scope =>
              simp only [opened] at h
              cases h
              rw [walk]
              simp only [opened]

/-- What a walk finds in the end is what it has found when nothing is left to do. -/
theorem walk_of_runs {before after : Walking} (h : Runs i before after) (done : after.steps = []) :
    walk i before.steps before.scopes before.found = after.found := by
  induction h using Relation.ReflTransGen.head_induction_on with
  | refl => rw [done, walk]
  | head first _ ih => rw [walk_turn first, ih]

/-! ## From a tree to what is behind it -/

theorem turn_enter (i : Input) (t : Ast) (rest : List Step) (scopes : List Scope)
    (listed : List Entry) (bases : List (String × String)) :
    turn i ⟨.enter t :: rest, scopes, foundOf i listed bases⟩ =
      some ⟨(if isImport t.data then [] else t.children.map Step.enter) ++
          ((opened? scopes listed.length t.data).map fun _ => Step.leave).toList ++ rest,
        (opened? scopes listed.length t.data).toList ++ scopes,
        foundOf i (listed ++ entriesAt scopes t) (bases ++ basesAt t.data)⟩ := by
  have below : (if !isImport t.data then t.children.map Step.enter else []) =
      if isImport t.data then [] else t.children.map Step.enter := by
    cases isImport t.data with
    | false => rfl
    | true => rfl
  simp only [turn, visit_foundOf]
  rw [below]
  cases opened? scopes listed.length t.data with
  | none => simp
  | some scope => simp

theorem opened?_import {n : Node} (dropped : isImport n = true) (scopes : List Scope)
    (number : Nat) : opened? scopes number n = none := by
  rw [opened?, beq_iff_eq.mp dropped]

/-- A scope that a node opened is left behind the nodes below it. -/
theorem runs_leave (opened : Option Scope) {rest : List Step} {scopes : List Scope} {f : Found} :
    Runs i ⟨(opened.map fun _ => Step.leave).toList ++ rest, opened.toList ++ scopes, f⟩
      ⟨rest, scopes, f⟩ := by
  cases opened with
  | none => exact .refl
  | some scope => exact .single rfl

mutual

/-- A tree is walked over, and all is as before but for what was found. -/
theorem runs_tree (i : Input) (rest : List Step) (scopes : List Scope) (listed : List Entry)
    (bases : List (String × String)) (t : Ast) :
    Runs i ⟨.enter t :: rest, scopes, foundOf i listed bases⟩
      ⟨rest, scopes, foundOf i (listed ++ entriesFrom scopes listed.length t)
        (bases ++ basesIn t)⟩ := by
  cases t with
  | node n children =>
      have entered := turn_enter i (.node n children) rest scopes listed bases
      refine .head entered ?_
      rw [entriesFrom, basesIn, ← List.append_assoc, ← List.append_assoc]
      by_cases dropped : isImport n = true
      · have closed : opened? scopes listed.length n = none := opened?_import dropped scopes _
        simp only [Ast.data, dropped, closed, if_true, Option.map_none, Option.toList_none,
          List.append_nil, List.nil_append]
        exact .refl
      · have below := runs_trees i
          (((opened? scopes listed.length n).map fun _ => Step.leave).toList ++ rest)
          ((opened? scopes listed.length n).toList ++ scopes)
          (listed ++ entriesAt scopes (.node n children)) (bases ++ basesAt n) children
        rw [List.length_append] at below
        simp only [Ast.data, Ast.children, dropped]
        rw [List.append_assoc]
        exact below.trans (runs_leave _)

theorem runs_trees (i : Input) (rest : List Step) (scopes : List Scope) (listed : List Entry)
    (bases : List (String × String)) (ts : List Ast) :
    Runs i ⟨ts.map .enter ++ rest, scopes, foundOf i listed bases⟩
      ⟨rest, scopes, foundOf i (listed ++ entriesAllFrom scopes listed.length ts)
        (bases ++ basesInAll ts)⟩ := by
  cases ts with
  | nil =>
      rw [entriesAllFrom, basesInAll, List.append_nil, List.append_nil]
      exact .refl
  | cons t ts =>
      have first := runs_tree i (ts.map .enter ++ rest) scopes listed bases t
      have others := runs_trees i rest scopes (listed ++ entriesFrom scopes listed.length t)
        (bases ++ basesIn t) ts
      rw [List.length_append, List.append_assoc, List.append_assoc] at others
      exact first.trans others

end

end Walking

/-! ## What the listing tells of its entries -/

section

variable {scopes : List Scope} {t : Ast} {listed : List Entry}

theorem entriesAt_place {e : Entry} (h : e ∈ entriesAt scopes t) :
    e.scopes = scopes ∧ e.tree = t := by
  have mapped {α : Type} {l : List α} {make : α → Entry}
      (places : ∀ a, (make a).scopes = scopes ∧ (make a).tree = t) (inside : e ∈ l.map make) :
      e.scopes = scopes ∧ e.tree = t := by
    obtain ⟨a, -, rfl⟩ := List.mem_map.mp inside
    exact places a
  unfold entriesAt at h
  split at h
  · exact mapped (fun _ => ⟨rfl, rfl⟩) h
  · exact mapped (fun _ => ⟨rfl, rfl⟩) h
  · split at h
    · cases h
    · exact mapped (fun _ => ⟨rfl, rfl⟩) h
  · exact mapped (fun _ => ⟨rfl, rfl⟩) h
  · cases h

mutual

/-- Every entry is one that its node gives in its scopes. -/
theorem entriesFrom_own {first : Nat} {e : Entry} (t : Ast) (scopes : List Scope)
    (h : e ∈ entriesFrom scopes first t) : e ∈ entriesAt e.scopes e.tree := by
  cases t with
  | node n children =>
      rw [entriesFrom, List.mem_append] at h
      rcases h with own | below
      · obtain ⟨sameScopes, sameTree⟩ := entriesAt_place own
        exact sameScopes ▸ sameTree ▸ own
      · split at below
        · cases below
        · exact entriesAllFrom_own children _ below

theorem entriesAllFrom_own {first : Nat} {e : Entry} (ts : List Ast) (scopes : List Scope)
    (h : e ∈ entriesAllFrom scopes first ts) : e ∈ entriesAt e.scopes e.tree := by
  cases ts with
  | nil => cases h
  | cons t rest =>
      rw [entriesAllFrom, List.mem_append] at h
      rcases h with here | there
      · exact entriesFrom_own t scopes here
      · exact entriesAllFrom_own rest scopes there

end

/-- A tree stands somewhere below another one. -/
def Under : Ast → Ast → Prop :=
  Relation.TransGen fun t up => t ∈ up.children

/-- A scope is the one of a definition. -/
structure ScopeOf (d : Entry) (s : Scope) : Prop where
  encloses : d.kind.Encloses
  kind : s.kind = if d.kind = .type then .type else .function
  qualifier : s.qualifier = d.qualifiedName

/-- Scopes with a number are those of definitions above a tree. -/
def Around (listed : List Entry) (scopes : List Scope) (t : Ast) : Prop :=
  ∀ s ∈ scopes, ∀ number, s.symbol = some number →
    ∃ d, listed[number]? = some d ∧ ScopeOf d s ∧ Under t d.tree

/-- The scopes of every entry are those of definitions before it and above its node. -/
def Settled (listed : List Entry) : Prop :=
  ∀ n e, listed[n]? = some e → Around (listed.take n) e.scopes e.tree

theorem Around.append (h : Around listed scopes t) (more : List Entry) :
    Around (listed ++ more) scopes t := by
  intro s hs number opened
  obtain ⟨d, place, own, under⟩ := h s hs number opened
  have inside := (List.getElem?_eq_some_iff.mp place).1
  exact ⟨d, (List.getElem?_append_left inside).trans place, own, under⟩

theorem Settled.append (h : Settled listed) {more : List Entry}
    (around : ∀ e ∈ more, Around listed e.scopes e.tree) : Settled (listed ++ more) := by
  intro n e place
  rcases Nat.lt_or_ge n listed.length with before | behind
  · rw [List.getElem?_append_left before] at place
    rw [List.take_append_of_le_length (Nat.le_of_lt before)]
    exact h n e place
  · rw [List.getElem?_append_right behind] at place
    rw [List.take_append, List.take_of_length_le behind]
    exact (around e (List.mem_of_getElem? place)).append _

theorem entriesAt_definition {kind : SymbolKind} {name : String} (encloses : kind.Encloses)
    (gives : symbolKind? t.data = some kind) (named : t.data.name? = some name) :
    entriesAt scopes t =
      [⟨t, scopes, kind, name, qualifyOwned scopes (ownerAt scopes t.data) name⟩] := by
  rcases encloses with rfl | rfl
  · simp only [entriesAt, gives, named]
    rfl
  · simp only [entriesAt, gives, named]
    rfl

/-- A scope with a number is that of the one entry of its node. -/
theorem opened?_scopeOf {scope : Scope} {first number : Nat}
    (opened : opened? scopes first t.data = some scope) (numbered : scope.symbol = some number) :
    number = first ∧ ∃ d, entriesAt scopes t = [d] ∧ ScopeOf d scope := by
  unfold opened? at opened
  split at opened
  · rename_i gives
    obtain ⟨name, named, rfl⟩ := Option.map_eq_some_iff.mp opened
    exact ⟨(Option.some.inj numbered).symm, _, entriesAt_definition (.inr rfl) gives named,
      .inr rfl, rfl, rfl⟩
  · rename_i gives
    obtain ⟨name, named, rfl⟩ := Option.map_eq_some_iff.mp opened
    exact ⟨(Option.some.inj numbered).symm, _, entriesAt_definition (.inl rfl) gives named,
      .inl rfl, rfl, rfl⟩
  · cases opened
  · obtain ⟨owner, -, rfl⟩ := Option.map_eq_some_iff.mp opened
    cases numbered

/-- Below a node, its scope comes to those around it. -/
theorem Around.below (h : Around listed scopes t) {child : Ast} (inside : child ∈ t.children) :
    Around (listed ++ entriesAt scopes t) ((opened? scopes listed.length t.data).toList ++ scopes)
      child := by
  intro s hs number numbered
  rcases List.mem_append.mp hs with here | before
  · obtain ⟨rfl, d, own, scopeOf⟩ := opened?_scopeOf (Option.mem_toList.mp here) numbered
    have same : d.tree = t := (entriesAt_place (own ▸ List.mem_singleton_self d)).2
    refine ⟨d, ?_, scopeOf, same ▸ .single inside⟩
    rw [own, List.getElem?_append_right (Nat.le_refl _), Nat.sub_self]
    rfl
  · obtain ⟨d, place, own, under⟩ := h.append _ s before number numbered
    exact ⟨d, place, own, .head inside under⟩

mutual

theorem settled_tree (t : Ast) (listed : List Entry) (scopes : List Scope) (settled : Settled listed)
    (around : Around listed scopes t) : Settled (listed ++ entriesFrom scopes listed.length t) := by
  cases t with
  | node n children =>
      have own : Settled (listed ++ entriesAt scopes (.node n children)) := by
        refine settled.append fun e inside => ?_
        obtain ⟨sameScopes, sameTree⟩ := entriesAt_place inside
        exact sameScopes ▸ sameTree ▸ around
      rw [entriesFrom, ← List.append_assoc]
      split
      · rwa [List.append_nil]
      · have below := settled_trees children _ _ own fun child inside => around.below inside
        rwa [List.length_append] at below

theorem settled_trees (ts : List Ast) (listed : List Entry) (scopes : List Scope)
    (settled : Settled listed)
    (around : ∀ t ∈ ts, Around listed scopes t) :
    Settled (listed ++ entriesAllFrom scopes listed.length ts) := by
  cases ts with
  | nil =>
      rw [entriesAllFrom, List.append_nil]
      exact settled
  | cons t rest =>
      obtain ⟨first, others⟩ := List.forall_mem_cons.mp around
      have here := settled_tree t listed scopes settled first
      have there := settled_trees rest _ scopes here fun u inside => (others u inside).append _
      rwa [List.length_append, List.append_assoc] at there

end

theorem entries_settled (t : Ast) : Settled (entries t) := by
  have start : Settled [] := fun n e place => by cases place
  have file : ∀ child ∈ t.children, Around [] [{ kind := .file }] child := by
    intro child _ s hs number numbered
    rw [List.mem_singleton.mp hs] at numbered
    cases numbered
  have settled := settled_trees t.children [] [{ kind := .file }] start file
  rwa [List.nil_append] at settled

/-- How an entry is named: an import by its target, a definition with an owner in the scope of the
    file by the owner, and anything else by the innermost scope. -/
structure Entry.Named (e : Entry) : Prop where
  byTarget : e.kind = .importing → e.qualifiedName ∈ e.tree.data.attributes.list .imports ∧
    e.name = Text.lastSegment e.qualifiedName
  byOwner : e.kind.Encloses → (innermost e.scopes).kind = .file →
    ∀ owner, ownerAt e.scopes e.tree.data = some owner → e.qualifiedName = s!"{owner}::{e.name}"
  byScope : e.kind ≠ .importing →
    (e.kind.Encloses → (innermost e.scopes).kind = .file → ownerAt e.scopes e.tree.data = none) →
      e.qualifiedName = qualify e.scopes e.name

/-- The rest of what is known of an entry: the kind is that of its node, and variables are listed
    outside of functions only. -/
structure Entry.Given (e : Entry) : Prop where
  kind : symbolKind? e.tree.data = some e.kind
  named : e.Named
  outside : e.kind = .var → (innermost e.scopes).kind ≠ .function

theorem qualifyOwned_file {owner name : String} (file : (innermost scopes).kind = .file) :
    qualifyOwned scopes (some owner) name = s!"{owner}::{name}" := by
  simp only [qualifyOwned, file]

theorem qualifyOwned_scope {owner : Option String} {name : String}
    (free : (innermost scopes).kind = .file → owner = none) :
    qualifyOwned scopes owner name = qualify scopes name := by
  unfold qualifyOwned
  split
  · rename_i file
    cases free file
  · rfl

theorem given_definition {kind : SymbolKind} {name : String} (encloses : kind.Encloses)
    (gives : symbolKind? t.data = some kind) :
    Entry.Given ⟨t, scopes, kind, name, qualifyOwned scopes (ownerAt scopes t.data) name⟩ := by
  have plain : kind ≠ .importing ∧ kind ≠ .var := by rcases encloses with rfl | rfl <;> decide
  refine ⟨gives, ⟨fun other => absurd other plain.1, ?_, ?_⟩, fun other => absurd other plain.2⟩
  · intro _ file owner belongs
    rw [belongs]
    exact qualifyOwned_file file
  · intro _ free
    exact qualifyOwned_scope (free encloses)

theorem given_reference {kind : SymbolKind} {name : String} (reference : ¬kind.Encloses)
    (target : kind ≠ .importing) (gives : symbolKind? t.data = some kind)
    (outside : kind = .var → (innermost scopes).kind ≠ .function) :
    Entry.Given ⟨t, scopes, kind, name, qualify scopes name⟩ :=
  ⟨gives, ⟨fun other => absurd other target, fun encloses => absurd encloses reference,
    fun _ _ => rfl⟩, outside⟩

theorem entriesAt_given {e : Entry} (h : e ∈ entriesAt scopes t) : e.Given := by
  unfold entriesAt at h
  split at h
  · rename_i gives
    obtain ⟨target, inside, rfl⟩ := List.mem_map.mp h
    exact ⟨gives, ⟨fun _ => ⟨inside, rfl⟩, fun encloses => by simp [SymbolKind.Encloses] at encloses,
      fun other => absurd rfl other⟩, fun other => by cases other⟩
  · rename_i gives
    obtain ⟨callee, -, rfl⟩ := List.mem_map.mp h
    exact given_reference (by simp [SymbolKind.Encloses]) (by decide) gives fun other =>
      absurd other (by decide)
  · rename_i gives
    split at h
    · cases h
    · rename_i outside
      obtain ⟨name, -, rfl⟩ := List.mem_map.mp h
      exact given_reference (by simp [SymbolKind.Encloses]) (by decide) gives fun _ => outside
  · rename_i kind importing call var gives
    obtain ⟨name, -, rfl⟩ := List.mem_map.mp h
    refine given_definition ?_ gives
    cases kind with
    | function => exact .inr rfl
    | type => exact .inl rfl
    | importing => exact absurd rfl importing
    | call => exact absurd rfl call
    | var => exact absurd rfl var
  · cases h

theorem entries_given (t : Ast) : ∀ e ∈ entries t, e.Given :=
  fun _ inside => entriesAt_given (entriesAllFrom_own t.children _ inside)

end

/-! ## The whole walk -/

/-- What is found by walking over a tree is what the recursion lists. -/
structure Traversed (i : Input) (t : Ast) (f : Found) : Prop where
  /-- Turn by turn the walk comes to its end, where only the scope of the file is left. -/
  run : Walking.Runs i (.start t) ⟨[], [{ kind := .file }], f⟩
  listed : f = foundOf i (entries t) (basesInAll t.children)
  settled : Settled (entries t)
  given : ∀ e ∈ entries t, e.Given

theorem runs_start (i : Input) (t : Ast) : Walking.Runs i (.start t)
    ⟨[], [{ kind := .file }], foundOf i (entries t) (basesInAll t.children)⟩ := by
  have below := Walking.runs_trees i [] [{ kind := .file }] [] [] t.children
  rw [List.append_nil, List.nil_append, List.nil_append] at below
  exact below

theorem ofAst_eq (i : Input) (t : Ast) :
    ofAst i t = foundOf i (entries t) (basesInAll t.children) :=
  Walking.walk_of_runs (runs_start i t) rfl

/-- The walk over a tree is the recursion over it. -/
theorem ofAst_traversed (i : Input) (t : Ast) : Traversed i t (ofAst i t) where
  run := ofAst_eq i t ▸ runs_start i t
  listed := ofAst_eq i t
  settled := entries_settled t
  given := entries_given t

/-! ## Names beside the scopes -/

/-- A source in one language with the nodes of its tree in preorder, each with its depth. -/
def preordered (language : Language) (text : String) (nodes : List (Nat × Label)) : Parsed :=
  .ofSource { text, trees := (Concrete.ofPreorder? nodes).toList.map fun tree => (language, tree) }
    language ""

/-- A class in Python with an import in its body. -/
def importInside : Parsed :=
  preordered .python "class Q:\n    import re\n"
    [(0, { kind := "module", span := ⟨0, 23, 1, 3⟩ }),
     (1, { kind := "class_definition", span := ⟨0, 22, 1, 2⟩ }),
     (2, { kind := "class", named := false, span := ⟨0, 5, 1, 1⟩ }),
     (2, { kind := "identifier", field := some "name", span := ⟨6, 7, 1, 1⟩ }),
     (2, { kind := ":", named := false, span := ⟨7, 8, 1, 1⟩ }),
     (2, { kind := "block", field := some "body", span := ⟨13, 22, 2, 2⟩ }),
     (3, { kind := "import_statement", span := ⟨13, 22, 2, 2⟩ }),
     (4, { kind := "import", named := false, span := ⟨13, 19, 2, 2⟩ }),
     (4, { kind := "dotted_name", field := some "name", span := ⟨20, 22, 2, 2⟩ }),
     (5, { kind := "identifier", span := ⟨20, 22, 2, 2⟩ })]

/-- A method in Go, which stands in the scope of the file. -/
def methodOutside : Parsed :=
  preordered .go "package p\n\nfunc (s S) m() \x7b\x7d\n"
    [(0, { kind := "source_file", span := ⟨0, 29, 1, 4⟩ }),
     (1, { kind := "package_clause", span := ⟨0, 9, 1, 1⟩ }),
     (2, { kind := "package", named := false, span := ⟨0, 7, 1, 1⟩ }),
     (2, { kind := "package_identifier", span := ⟨8, 9, 1, 1⟩ }),
     (1, { kind := "method_declaration", span := ⟨11, 28, 3, 3⟩ }),
     (2, { kind := "func", named := false, span := ⟨11, 15, 3, 3⟩ }),
     (2, { kind := "parameter_list", field := some "receiver", span := ⟨16, 21, 3, 3⟩ }),
     (3, { kind := "(", named := false, span := ⟨16, 17, 3, 3⟩ }),
     (3, { kind := "parameter_declaration", span := ⟨17, 20, 3, 3⟩ }),
     (4, { kind := "identifier", field := some "name", span := ⟨17, 18, 3, 3⟩ }),
     (4, { kind := "type_identifier", field := some "type", span := ⟨19, 20, 3, 3⟩ }),
     (3, { kind := ")", named := false, span := ⟨20, 21, 3, 3⟩ }),
     (2, { kind := "field_identifier", field := some "name", span := ⟨22, 23, 3, 3⟩ }),
     (2, { kind := "parameter_list", field := some "parameters", span := ⟨23, 25, 3, 3⟩ }),
     (3, { kind := "(", named := false, span := ⟨23, 24, 3, 3⟩ }),
     (3, { kind := ")", named := false, span := ⟨24, 25, 3, 3⟩ }),
     (2, { kind := "block", field := some "body", span := ⟨26, 28, 3, 3⟩ }),
     (3, { kind := "\x7b", named := false, span := ⟨26, 27, 3, 3⟩ }),
     (3, { kind := "\x7d", named := false, span := ⟨27, 28, 3, 3⟩ })]

/-- The qualified names that a walk gives to the symbols of a source. -/
def walkedNames (p : Parsed) : List String :=
  (ofAst (p.input default defaultSnippetChars) p.ast).symbols.map (·.qualifiedName)

/-- The names of the entries of a source, each under the prefix of the innermost scope. -/
def prefixedNames (p : Parsed) : List String :=
  (entries p.ast).map fun e => qualify e.scopes e.name

/-- The prefix of the innermost scope alone does not make the qualified name: an import is called
    as its target is, and a method with a receiver stands under the type of the receiver. -/
theorem names_beside_prefixes :
    walkedNames importInside = ["Q", "re"] ∧ prefixedNames importInside = ["Q", "Q::re"] ∧
      walkedNames methodOutside = ["S::m"] ∧ prefixedNames methodOutside = ["m"] := by
  decide +kernel

end CodeSearch.Extract
