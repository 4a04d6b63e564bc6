import CodeSearch.Proofs.Symbol.Mentions

/-! # The symbols of a tree by recursion

What a tree gives is listed without a state: every node is handed the scopes that the nodes above
it open, and gives its entries before those of the nodes below it. All that an entry has from the
others is counted in the list: the ordinal of its name before it, the definition around it by
number, and the calls in its body behind it.
-/

namespace CodeSearch.Extract

open Syntax

/-! ## Entries -/

/-- A symbol as a node gives it in the scopes around the node. -/
structure Entry where
  tree : Ast
  /-- The scopes that the nodes above open, the innermost one first. -/
  scopes : List Scope
  kind : SymbolKind
  name : String
  qualifiedName : String

/-- The type that a definition names as its owner, or else that of the block around it. -/
def ownerAt (scopes : List Scope) (n : Node) : Option String :=
  (n.attributes.get? .owner).or (innermost scopes).owner

/-- The entries of a node itself. -/
def entriesAt (scopes : List Scope) (t : Ast) : List Entry :=
  match symbolKind? t.data with
  | some .importing =>
    (t.data.attributes.list .imports).map fun target =>
      ⟨t, scopes, .importing, Text.lastSegment target, target⟩
  | some .call =>
    (t.data.attributes.get? .callee).toList.map fun callee =>
      ⟨t, scopes, .call, callee, qualify scopes callee⟩
  | some .var =>
    if (innermost scopes).kind = .function then []
    else t.data.name?.toList.map fun name => ⟨t, scopes, .var, name, qualify scopes name⟩
  | some kind =>
    t.data.name?.toList.map fun name =>
      ⟨t, scopes, kind, name, qualifyOwned scopes (ownerAt scopes t.data) name⟩
  | none => []

/-- The scope of a definition, whose entry has a number. -/
def definitionScope (scopes : List Scope) (number : Nat) (n : Node) (kind : ScopeKind)
    (name : String) : Scope :=
  { kind, qualifier := qualifyOwned scopes (ownerAt scopes n) name, symbol := some number }

/-- The scope that a node opens for the nodes below it, when `number` is that of its entry. -/
def opened? (scopes : List Scope) (number : Nat) (n : Node) : Option Scope :=
  match symbolKind? n with
  | some .function => n.name?.map (definitionScope scopes number n .function)
  | some .type => n.name?.map (definitionScope scopes number n .type)
  | some _ => none
  | none =>
    (n.attributes.get? .scope).map fun owner =>
      { kind := .members, qualifier := owner, owner := some owner }

/-- The bases that a node gives to the type to which its members belong. -/
def basesAt (n : Node) : List (String × String) :=
  match symbolKind? n, n.attributes.get? .scope with
  | none, some owner => (n.attributes.list .bases).map fun base => (owner, base)
  | _, _ => []

/-- Nothing is listed below an import. -/
def isImport (n : Node) : Bool :=
  symbolKind? n == some .importing

mutual

/-- The entries of a tree in preorder, of which the first one has number `first`. -/
def entriesFrom (scopes : List Scope) (first : Nat) : Ast → List Entry
  | .node n children =>
    let own := entriesAt scopes (.node n children)
    own ++ if isImport n then []
      else entriesAllFrom ((opened? scopes first n).toList ++ scopes) (first + own.length) children

/-- The entries of neighbouring trees. -/
def entriesAllFrom (scopes : List Scope) (first : Nat) : List Ast → List Entry
  | [] => []
  | t :: rest =>
    let entries := entriesFrom scopes first t
    entries ++ entriesAllFrom scopes (first + entries.length) rest

end

mutual

/-- The bases that the blocks of a tree give to types, in preorder. -/
def basesIn : Ast → List (String × String)
  | .node n children => basesAt n ++ if isImport n then [] else basesInAll children

def basesInAll : List Ast → List (String × String)
  | [] => []
  | t :: rest => basesIn t ++ basesInAll rest

end

/-- The entries of a whole tree, whose root is the scope of the file. -/
def entries (t : Ast) : List Entry :=
  entriesAllFrom [{ kind := .file }] 0 t.children

/-! ## Symbols of entries -/

/-- Add a relation that is not there yet. -/
def joined (relations : List Relation) (r : Relation) : List Relation :=
  if relations.contains r then relations else relations ++ [r]

theorem mem_joined {relations : List Relation} {r other : Relation} :
    other ∈ joined relations r ↔ other ∈ relations ∨ other = r := by
  unfold joined
  split
  · rename_i has
    constructor
    · exact .inl
    · rintro (inside | rfl)
      · exact inside
      · exact List.contains_iff_mem.mp has
  · rw [List.mem_append, List.mem_singleton]

theorem mem_foldl_joined {relations more : List Relation} {r : Relation} :
    r ∈ more.foldl joined relations ↔ r ∈ relations ∨ r ∈ more := by
  induction more generalizing relations with
  | nil => simp
  | cons first rest ih => rw [List.foldl_cons, ih, mem_joined, List.mem_cons, or_assoc]

namespace Entry

/-- What the node of an entry refers to. -/
def relations (e : Entry) : List Relation :=
  match e.kind with
  | .function | .type =>
    (e.tree.data.attributes.list .bases).map fun base => ⟨.inherits, .unresolved base⟩
  | .importing => [⟨.imports, .unresolved e.qualifiedName⟩]
  | .call => [⟨.calls, .unresolved e.name⟩]
  | .var => []

/-- Only definitions have a shape. -/
def shape (i : Input) (e : Entry) : Option Shape :=
  match e.kind with
  | .function | .type => some (Shape.ofAst e.tree i.selfNames)
  | _ => none

/-- The type to which a definition outside of all others is attached. -/
def owner? (e : Entry) : Option String :=
  match e.kind, enclosing e.scopes with
  | .function, none | .type, none => ownerAt e.scopes e.tree.data
  | _, _ => none

/-- Number of entries of the same kind and qualified name among those before. -/
def ordinal (before : List Entry) (e : Entry) : Nat :=
  before.countP fun d => d.kind == e.kind && d.qualifiedName == e.qualifiedName

def id (path : String) (before : List Entry) (e : Entry) : SymbolId :=
  SymbolId.derive path e.kind e.qualifiedName (e.ordinal before)

/-- The relation that a call gives to the definition around it. -/
def callIn? (number : Nat) (e : Entry) : Option Relation :=
  if e.kind = .call ∧ enclosing e.scopes = some number then some ⟨.calls, .unresolved e.name⟩
  else none

end Entry

/-- The ids of entries in their order. -/
def ids (path : String) (entries : List Entry) : List SymbolId :=
  entries.zipIdx.map fun (e, n) => e.id path (entries.take n)

/-- The symbol of an entry between those before and those after it. -/
def Entry.symbol (i : Input) (before after : List Entry) (e : Entry) : Symbol :=
  let text := e.tree.data.text i.text
  { id := e.id i.unit.path before
    name := e.name
    qualifiedName := e.qualifiedName
    kind := e.kind
    language := i.language
    unit := ⟨i.unit.path, i.unit.version⟩
    span := e.tree.data.span
    signature := Text.takeChars signatureChars (Text.trim ((Text.lines text).headD ""))
    bodyHash := Digest.contentHash text
    snippet := Text.takeChars i.snippetChars text
    parent := (enclosing e.scopes).bind fun number => (ids i.unit.path before)[number]?
    relations := (after.filterMap (Entry.callIn? before.length)).foldl joined e.relations
    shape := e.shape i
    modifiedAt := i.unit.modifiedAt
    author := i.unit.author }

def symbolsOf (i : Input) (entries : List Entry) : List Symbol :=
  entries.zipIdx.map fun (e, n) => e.symbol i (entries.take n) (entries.drop (n + 1))

/-- The definitions that belong to a type by name, told by their numbers. -/
def ownedOf (entries : List Entry) : List (Nat × String) :=
  entries.zipIdx.filterMap fun (e, n) => e.owner?.map fun owner => (n, owner)

/-- What is found when some entries and some bases of blocks are listed. -/
def foundOf (i : Input) (entries : List Entry) (bases : List (String × String)) : Found :=
  { symbols := symbolsOf i entries, owned := ownedOf entries, bases }

/-! ## One more entry -/

section

variable {i : Input} {path : String} {listed : List Entry} {e : Entry}

theorem getElem?_ids (path : String) (listed : List Entry) (n : Nat) :
    (ids path listed)[n]? = listed[n]?.map fun e => e.id path (listed.take n) := by
  rw [ids, List.getElem?_map, List.getElem?_zipIdx, Option.map_map, Nat.zero_add]
  rfl

theorem getElem?_symbolsOf (i : Input) (listed : List Entry) (n : Nat) : (symbolsOf i listed)[n]? =
    listed[n]?.map fun e => e.symbol i (listed.take n) (listed.drop (n + 1)) := by
  rw [symbolsOf, List.getElem?_map, List.getElem?_zipIdx, Option.map_map, Nat.zero_add]
  rfl

theorem symbolsOf_length (i : Input) (listed : List Entry) :
    (symbolsOf i listed).length = listed.length := by
  rw [symbolsOf, List.length_map, List.length_zipIdx]

theorem foundOf_length (i : Input) (listed : List Entry) (bases : List (String × String)) :
    (foundOf i listed bases).symbols.length = listed.length :=
  symbolsOf_length i listed

theorem symbolsOf_ids (i : Input) (listed : List Entry) :
    (symbolsOf i listed).map (·.id) = ids i.unit.path listed := by
  rw [symbolsOf, ids, List.map_map]
  rfl

/-- What an entry tells by itself is the same of its symbol. -/
theorem symbolsOf_map {β : Type} {view : Symbol → β} {own : Entry → β}
    (same : ∀ before after e, view (Entry.symbol i before after e) = own e) :
    (symbolsOf i listed).map view = listed.map own := by
  calc
    (symbolsOf i listed).map view = listed.zipIdx.map fun p => own p.1 := by
      rw [symbolsOf, List.map_map]
      exact List.map_congr_left fun p _ => same _ _ _
    _ = (listed.zipIdx.map Prod.fst).map own := by
      rw [List.map_map]
      rfl
    _ = listed.map own := by rw [List.zipIdx_map_fst]

/-- A symbol with one more relation, unless it has it already. -/
def addRelation (r : Relation) (s : Symbol) : Symbol :=
  { s with relations := joined s.relations r }

theorem relate_eq (f : Found) (number : Nat) (r : Relation) :
    f.relate number r = { f with symbols := f.symbols.modify number (addRelation r) } := by
  have same : (fun s : Symbol =>
      if s.relations.contains r then s else { s with relations := s.relations ++ [r] }) =
        addRelation r := by
    funext s
    unfold addRelation joined
    split
    · rfl
    · rfl
  rw [Found.relate, same]

/-- One more entry behind a symbol may be a call in its body. -/
theorem symbol_snoc (before after : List Entry) (d : Entry) : d.symbol i before (after ++ [e]) =
    match e.callIn? before.length with
    | some r => addRelation r (d.symbol i before after)
    | none => d.symbol i before after := by
  unfold Entry.symbol addRelation
  rw [List.filterMap_append, List.foldl_append, List.filterMap_cons, List.filterMap_nil]
  split
  · rename_i none
    rw [none]
    rfl
  · rename_i r called
    rw [called]
    rfl

/-- The symbols of entries when one more entry follows. -/
theorem getElem?_symbolsOf_snoc {n : Nat} (inside : n < listed.length) :
    (symbolsOf i (listed ++ [e]))[n]? = (symbolsOf i listed)[n]?.map fun s =>
      match e.callIn? n with
      | some r => addRelation r s
      | none => s := by
  have before : (listed.take n).length = n := by
    rw [List.length_take]
    omega
  rw [getElem?_symbolsOf, getElem?_symbolsOf, List.getElem?_append_left inside, Option.map_map]
  refine congrArg (Option.map · listed[n]?) (funext fun d => ?_)
  rw [List.take_append_of_le_length (Nat.le_of_lt inside), List.drop_append_of_le_length inside,
    symbol_snoc, before]
  rfl

theorem symbolsOf_snoc {symbols : List Symbol} (places : symbols.length = listed.length)
    (related : ∀ n < listed.length, symbols[n]? = (symbolsOf i listed)[n]?.map fun s =>
      match e.callIn? n with
      | some r => addRelation r s
      | none => s) :
    symbolsOf i (listed ++ [e]) = symbols ++ [e.symbol i listed []] := by
  refine List.ext_getElem? fun n => ?_
  rcases Nat.lt_trichotomy n listed.length with inside | rfl | behind
  · rw [getElem?_symbolsOf_snoc inside, List.getElem?_append_left (places.symm ▸ inside),
      related n inside]
  · rw [getElem?_symbolsOf, List.getElem?_append_right (Nat.le_of_eq places), places,
      List.getElem?_append_right (Nat.le_refl _), Nat.sub_self]
    simp
  · rw [List.getElem?_eq_none, List.getElem?_eq_none]
    · rw [List.length_append, places]
      exact behind
    · rw [symbolsOf_length, List.length_append]
      exact behind

/-- An entry that is no call in a definition leaves the symbols before it alone. -/
theorem symbolsOf_apart (i : Input) (listed : List Entry) (apart : ∀ n, e.callIn? n = none) :
    symbolsOf i (listed ++ [e]) = symbolsOf i listed ++ [e.symbol i listed []] := by
  refine symbolsOf_snoc (symbolsOf_length i listed) fun n _ => ?_
  rw [apart n]
  exact Option.map_id'.symm

/-- A call gives its relation to the definition around it. -/
theorem symbolsOf_call (i : Input) (listed : List Entry) (call : e.kind = .call) {number : Nat}
    (around : enclosing e.scopes = some number) :
    symbolsOf i (listed ++ [e]) =
      (symbolsOf i listed).modify number (addRelation ⟨.calls, .unresolved e.name⟩) ++
        [e.symbol i listed []] := by
  refine symbolsOf_snoc ((List.length_modify ..).trans (symbolsOf_length i listed)) fun n _ => ?_
  rw [List.getElem?_modify, Option.map_eq_map]
  congr 1
  funext s
  by_cases here : number = n
  · simp [Entry.callIn?, call, around, here]
  · simp [Entry.callIn?, call, around, here]

theorem ownedOf_snoc (listed : List Entry) (e : Entry) : ownedOf (listed ++ [e]) =
    ownedOf listed ++ (e.owner?.map fun owner => (listed.length, owner)).toList := by
  simp only [ownedOf, List.zipIdx_append, List.filterMap_append, Nat.zero_add]
  congr 1

/-! ## What a visit finds -/

section

variable {f : Found} (same : f.symbols.map Symbol.bare = (symbolsOf i listed).map Symbol.bare)

include same

theorem enclosingId_entry (scopes : List Scope) : f.enclosingId scopes =
    (enclosing scopes).bind fun number => (ids i.unit.path listed)[number]? := by
  rw [Found.enclosingId, ← symbolsOf_ids, ← ids_of_bare same]
  simp only [List.getElem?_map]

theorem ordinal_entry (e : Entry) : f.ordinal e.kind e.qualifiedName = e.ordinal listed := by
  have names : f.symbols.map (fun s => (s.kind, s.qualifiedName)) =
      listed.map fun d => (d.kind, d.qualifiedName) := by
    have bare := congrArg (List.map fun s : Symbol => (s.kind, s.qualifiedName)) same
    rw [List.map_map, List.map_map] at bare
    exact bare.trans (symbolsOf_map fun _ _ _ => rfl)
  have counted := congrArg (List.countP fun p => p.1 == e.kind && p.2 == e.qualifiedName) names
  rwa [List.countP_map, List.countP_map] at counted

/-- The symbol that is emitted for an entry is the one of the entry. -/
theorem emit_entry (e : Entry) :
    f.emit i e.tree.data e.kind e.name e.qualifiedName (f.enclosingId e.scopes) e.relations
        (e.shape i) = { f with symbols := f.symbols ++ [e.symbol i listed []] } := by
  rw [enclosingId_entry same, Found.emit, ordinal_entry same]
  rfl

end

/-- An entry that is attached to no type and is no call in a definition only adds its symbol. -/
theorem foundOf_plain (i : Input) (listed : List Entry) (bases : List (String × String)) {e : Entry}
    (apart : ∀ n, e.callIn? n = none) (free : e.owner? = none) :
    (foundOf i listed bases).emit i e.tree.data e.kind e.name e.qualifiedName
        ((foundOf i listed bases).enclosingId e.scopes) e.relations (e.shape i) =
      foundOf i (listed ++ [e]) bases := by
  rw [emit_entry rfl, foundOf, foundOf, symbolsOf_apart i listed apart, ownedOf_snoc, free]
  simp

theorem imports_foundOf (i : Input) (scopes : List Scope) (t : Ast) (targets : List String)
    (listed : List Entry) (bases : List (String × String)) :
    targets.foldl (fun f x => f.importTarget i scopes t.data x) (foundOf i listed bases) =
      foundOf i (listed ++ targets.map fun target =>
        ⟨t, scopes, .importing, Text.lastSegment target, target⟩) bases := by
  induction targets generalizing listed with
  | nil => rw [List.map_nil, List.append_nil, List.foldl_nil]
  | cons target rest ih =>
      let e : Entry := ⟨t, scopes, .importing, Text.lastSegment target, target⟩
      have one : (foundOf i listed bases).importTarget i scopes t.data target =
          foundOf i (listed ++ [e]) bases :=
        foundOf_plain i listed bases (e := e) (fun _ => rfl) rfl
      rw [List.foldl_cons, one, ih, List.map_cons, List.append_assoc, List.singleton_append]

theorem call_foundOf (i : Input) (scopes : List Scope) (t : Ast) (callee : String)
    (listed : List Entry) (bases : List (String × String)) :
    (foundOf i listed bases).call i scopes t.data callee =
      foundOf i (listed ++ [⟨t, scopes, .call, callee, qualify scopes callee⟩]) bases := by
  let e : Entry := ⟨t, scopes, .call, callee, qualify scopes callee⟩
  cases around : enclosing scopes with
  | none =>
      have apart (n : Nat) : e.callIn? n = none := by simp [Entry.callIn?, e, around]
      simp only [Found.call, around]
      exact foundOf_plain i listed bases (e := e) apart rfl
  | some number =>
      let r : Relation := ⟨.calls, .unresolved callee⟩
      have related : ((foundOf i listed bases).relate number r).symbols.map Symbol.bare =
          (symbolsOf i listed).map Symbol.bare := Found.relate_bare ..
      have parent : (foundOf i listed bases).enclosingId scopes =
          ((foundOf i listed bases).relate number r).enclosingId scopes := by
        rw [enclosingId_entry related, enclosingId_entry rfl]
      have emitted := emit_entry related e
      simp only [Found.call, around]
      rw [parent]
      refine emitted.trans ?_
      rw [relate_eq, foundOf, foundOf, symbolsOf_call i listed (e := e) rfl around, ownedOf_snoc]
      simp [e, r, Entry.owner?]

/-- Only a definition outside of all others is attached to a type. -/
theorem owner?_definition {e : Entry} (encloses : e.kind.Encloses) :
    e.owner? = match enclosing e.scopes with
      | some _ => none
      | none => ownerAt e.scopes e.tree.data := by
  unfold Entry.owner?
  rcases encloses with type | function
  · rw [type]
    cases enclosing e.scopes with
    | none => rfl
    | some _ => rfl
  · rw [function]
    cases enclosing e.scopes with
    | none => rfl
    | some _ => rfl

theorem define_foundOf (i : Input) (scopes : List Scope) (t : Ast) {kind : SymbolKind}
    (encloses : kind.Encloses) (name : String) (listed : List Entry)
    (bases : List (String × String)) :
    (foundOf i listed bases).define i scopes t kind name =
      (foundOf i (listed ++
          [⟨t, scopes, kind, name, qualifyOwned scopes (ownerAt scopes t.data) name⟩]) bases,
        qualifyOwned scopes (ownerAt scopes t.data) name) := by
  let e : Entry := ⟨t, scopes, kind, name, qualifyOwned scopes (ownerAt scopes t.data) name⟩
  have apart (n : Nat) : e.callIn? n = none := by
    rcases encloses with rfl | rfl
    · rfl
    · rfl
  have emitted : (foundOf i listed bases).emit i t.data kind name e.qualifiedName
      ((foundOf i listed bases).enclosingId scopes)
      ((t.data.attributes.list .bases).map fun base => ⟨.inherits, .unresolved base⟩)
      (some (Shape.ofAst t i.selfNames)) =
        { foundOf i listed bases with symbols := symbolsOf i (listed ++ [e]) } := by
    have emitted := emit_entry (f := foundOf i listed bases) rfl e
    rw [symbolsOf_apart i listed apart]
    rcases encloses with rfl | rfl
    · exact emitted
    · exact emitted
  have owner : e.owner? = match enclosing scopes with
      | some _ => none
      | none => ownerAt scopes t.data := owner?_definition encloses
  have found : foundOf i (listed ++ [e]) bases =
      { symbols := symbolsOf i (listed ++ [e]), bases,
        owned := ownedOf listed ++ (e.owner?.map fun owner => (listed.length, owner)).toList } := by
    rw [foundOf, ownedOf_snoc]
  simp only [Found.define]
  rw [← ownerAt, emitted, found, owner]
  generalize symbolsOf i (listed ++ [e]) = symbols
  cases enclosing scopes with
  | some _ =>
      cases ownerAt scopes t.data with
      | none => simp [foundOf]
      | some _ => simp [foundOf]
  | none =>
      cases ownerAt scopes t.data with
      | none => simp [foundOf]
      | some _ => simp [foundOf, symbolsOf_length]

theorem variable_foundOf (i : Input) (scopes : List Scope) (t : Ast) (name : String)
    (listed : List Entry) (bases : List (String × String)) :
    (foundOf i listed bases).variableOf i scopes t.data name =
      foundOf i (listed ++ [⟨t, scopes, .var, name, qualify scopes name⟩]) bases :=
  foundOf_plain i listed bases (e := ⟨t, scopes, .var, name, qualify scopes name⟩) (fun _ => rfl) rfl

/-- A visit finds the entries and bases of its node. -/
theorem visit_foundOf (i : Input) (scopes : List Scope) (t : Ast) (listed : List Entry)
    (bases : List (String × String)) :
    visit i scopes t (foundOf i listed bases) =
      { found := foundOf i (listed ++ entriesAt scopes t) (bases ++ basesAt t.data)
        scope := opened? scopes listed.length t.data
        descends := !isImport t.data } := by
  cases gives : symbolKind? t.data with
  | none =>
      simp only [visit, gives, entriesAt, basesAt, opened?, isImport, List.append_nil]
      cases t.data.attributes.get? .scope with
      | none => simp
      | some owner => simp [foundOf]
  | some kind =>
      cases kind with
      | importing =>
          simp only [visit, gives, entriesAt, basesAt, opened?, isImport, imports_foundOf]
          simp
      | call =>
          simp only [visit, gives, entriesAt, basesAt, opened?, isImport]
          cases t.data.attributes.get? .callee with
          | none => simp
          | some callee => simp [call_foundOf]
      | var =>
          simp only [visit, gives, entriesAt, basesAt, opened?, isImport]
          cases t.data.name? with
          | none => simp
          | some name =>
              by_cases inside : (innermost scopes).kind = .function
              · simp [inside]
              · simp [inside, variable_foundOf]
      | function | type =>
          simp only [visit, gives, entriesAt, basesAt, opened?, isImport]
          cases t.data.name? with
          | none => simp
          | some name =>
              dsimp only
              rw [define_foundOf i scopes t (by simp [SymbolKind.Encloses])]
              simp [definitionScope, foundOf_length]

end

end CodeSearch.Extract
