import CodeSearch.Proofs.Keyed
import CodeSearch.Proofs.Text
import CodeSearch.Syntax.Source

/-! # Names in normalized trees

No grammar gives a node an empty value. The type to which the members of a block or a method belong
is named by the last segment of its written name, in which there is nothing beside separators, or
no separator at all. So it is never a qualified name whose last segment is an identifier.
-/

namespace CodeSearch

namespace Text

/-- Whether a character stands between the segments of a name. -/
def separates (c : Char) : Bool :=
  c == '.' || c == ':' || c == '/'

/-- There is more in a text than separators. -/
def HasLetter (s : String) : Prop :=
  ∃ c ∈ s.toList, separates c = false

/-- A text consists of separators and of something else. -/
structure Mixed (s : String) : Prop where
  separator : ∃ c ∈ s.toList, separates c = true
  letter : HasLetter s

theorem lastSegment_not_mixed (s : String) : ¬Mixed (lastSegment s) := by
  rintro ⟨⟨c, hc, separator⟩, d, hd, letter⟩
  rw [lastSegment] at hc hd
  split at hc
  · rename_i piece last
    -- a segment has no separator
    rw [String.toList_ofList] at hc
    have inside := (List.mem_filter.mp (List.mem_of_getLast? last)).1
    have none : separates c = false := of_mem_splitWhere inside c hc
    rw [none] at separator
    cases separator
  · rename_i last
    -- without a segment there are only separators
    rw [last] at hd
    have all : separates d = true := by
      refine all_of_splitWhere (fun piece inside => ?_) d hd
      by_contra filled
      have kept := List.filter_eq_nil_iff.mp (List.getLast?_eq_none_iff.mp last) piece inside
      exact kept (by simpa using filled)
    rw [all] at letter
    cases letter

/-- A name under a qualifier is mixed. -/
theorem mixed_under (qualifier : String) {name : String} (letter : HasLetter name) :
    Mixed s!"{qualifier}::{name}" := by
  obtain ⟨c, inside, letter⟩ := letter
  have parts :
      (s!"{qualifier}::{name}").toList = qualifier.toList ++ [':', ':'] ++ name.toList := by
    simp only [String.toList_append, List.append_assoc]
    rfl
  refine ⟨⟨':', ?_, rfl⟩, c, ?_, letter⟩
  · simp [parts]
  · simp [parts, inside]

end Text

namespace Syntax

/-! ## Values of attributes -/

namespace Attributes

/-- No value is empty, and types are named by one segment. -/
structure Neat (a : Attributes) : Prop where
  filled : ∀ key value, a.get? key = some value → value ≠ ""
  segment : ∀ key value, a.get? key = some value → key = .scope ∨ key = .owner → ¬Text.Mixed value

variable {a : Attributes} {key : Attribute}

@[grind ←]
theorem Neat.empty : empty.Neat :=
  ⟨nofun, nofun⟩

theorem Neat.put (neat : a.Neat) {value : String} (filled : value ≠ "")
    (segment : key = .scope ∨ key = .owner → ¬Text.Mixed value) :
    Neat ⟨Keyed.put a.entries key value⟩ := by
  have put (other : Attribute) (v : String)
      (held : get? ⟨Keyed.put a.entries key value⟩ other = some v) :
      other = key ∧ v = value ∨ a.get? other = some v := by
    rw [get?, Keyed.get?_put] at held
    split at held
    · rename_i same
      exact .inl ⟨same, (Option.some.inj held).symm⟩
    · exact .inr held
  constructor
  case filled =>
    intro other v held
    rcases put other v held with ⟨-, rfl⟩ | before
    · exact filled
    · exact neat.filled other v before
  case segment =>
    intro other v held type
    rcases put other v held with ⟨rfl, rfl⟩ | before
    · exact segment type
    · exact neat.segment other v before type

theorem Neat.set (neat : a.Neat) {value : String}
    (segment : key = .scope ∨ key = .owner → ¬Text.Mixed value) : (a.set key value).Neat := by
  rw [Attributes.set]
  split
  · exact neat
  · rename_i filled
    exact neat.put (by simpa using filled) segment

/-- The last segment of a written name can name a type. -/
theorem Neat.setSegment (neat : a.Neat) {written : Option String} {type : String → String}
    (segment : ∀ text, ¬Text.Mixed (type text)) : (a.setSome key (written.map type)).Neat := by
  refine neat.set fun _ => ?_
  cases written with
  | none => exact fun mixed => nomatch mixed.separator
  | some text => exact segment text

section

variable (scope : key ≠ .scope) (owner : key ≠ .owner)

include scope owner

@[grind ←]
theorem Neat.setPlain (neat : a.Neat) (value : String) : (a.set key value).Neat :=
  neat.set fun type => type.elim (absurd · scope) (absurd · owner)

@[grind ←]
theorem Neat.setSome (neat : a.Neat) (value : Option String) : (a.setSome key value).Neat :=
  neat.setPlain scope owner _

@[grind ←]
theorem Neat.push (neat : a.Neat) (part : String) : (a.push key part).Neat := by
  have plain {value : String} (filled : value ≠ "") : Neat ⟨Keyed.put a.entries key value⟩ :=
    neat.put filled fun type => type.elim (absurd · scope) (absurd · owner)
  simp only [Attributes.push]
  split
  · exact neat
  · rename_i filled
    refine plain ?_
    split
    · simpa using filled
    · simp

@[grind ←]
theorem Neat.pushAll (neat : a.Neat) (parts : List String) : (a.pushAll key parts).Neat :=
  List.foldlRecOn (motive := Neat) parts _ neat fun _ before part _ => before.push scope owner part

@[grind ←]
theorem Neat.flag (neat : a.Neat) : (a.flag key).Neat :=
  neat.put (by decide) fun type => type.elim (absurd · scope) (absurd · owner)

@[grind ←]
theorem Neat.flagIf (neat : a.Neat) (condition : Bool) : (a.flagIf condition key).Neat := by
  cases condition with
  | false => exact neat
  | true => exact neat.flag scope owner

end

end Attributes

end Syntax

/-! ## Values that the grammars give -/

namespace Grammar

open Syntax

@[grind ←]
theorem named_neat (source : String) (t : Concrete) (field : String) :
    (named source t field).Neat := by
  grind [named]

@[grind ←]
theorem member_neat (source : String) (t : Concrete) (nameField receiverField : String) :
    (member source t nameField receiverField).Neat := by
  grind [member]

/-- A grammar gives neat attributes. -/
def Neat (g : Grammar) : Prop :=
  ∀ source site kind, (g.annotate source site kind).Neat

theorem python_neat : python.Neat := by
  intro source site kind
  show (Python.annotate source site kind).Neat
  unfold Python.annotate
  split <;> grind

theorem javascript_neat : javascript.Neat := by
  intro source site kind
  show (JavaScript.annotate source site kind).Neat
  unfold JavaScript.annotate
  split <;> grind

/-- Of the attributes that name a type, there is the receiver type of a method only. -/
theorem go_neat : go.Neat := by
  intro source site kind
  have method (receiver : Concrete) : ((named source site.node "name").setSome .owner
      ((receiver.fieldText? source "type").map fun type =>
        Text.lastSegment (Text.baseTypeName type))).Neat :=
    (named_neat ..).setSegment fun _ => Text.lastSegment_not_mixed _
  show (Go.annotate source site kind).Neat
  unfold Go.annotate
  split <;> grind

/-- Of the attributes that name a type, there is the one of a block of members only. -/
theorem rust_neat : rust.Neat := by
  intro source site kind
  have members : (Attributes.empty.setSome .scope
      ((site.node.fieldText? source "type").map Rust.typeName)).Neat :=
    Attributes.Neat.empty.setSegment fun _ => Text.lastSegment_not_mixed _
  show (Rust.annotate source site kind).Neat
  unfold Rust.annotate
  split <;> grind

end Grammar

theorem Language.grammar_neat (language : Language) : language.grammar.Neat := by
  cases language with
  | python => exact Grammar.python_neat
  | javascript | typescript => exact Grammar.javascript_neat
  | go => exact Grammar.go_neat
  | rust => exact Grammar.rust_neat

/-! ## Nodes -/

namespace Syntax

namespace Ast

variable {g : Grammar} {source : String}

mutual

/-- Every node is the normalized one of some site. -/
theorem mem_ofConcreteAt (ancestors : List Concrete) (position : Nat) (t : Concrete) {n : Node}
    (inside : n ∈ (ofConcreteAt g source ancestors position t).preorder) :
    ∃ site, n = nodeAt g source site := by
  cases t with
  | node label children =>
      rw [ofConcreteAt, preorder] at inside
      rcases List.mem_cons.mp inside with same | below
      · exact ⟨_, same⟩
      · exact mem_ofChildrenFrom _ 0 children below
termination_by sizeOf t

theorem mem_ofChildrenFrom (ancestors : List Concrete) (position : Nat) (ts : List Concrete)
    {n : Node} (inside : n ∈ preorderAll (ofChildrenFrom g source ancestors position ts)) :
    ∃ site, n = nodeAt g source site := by
  cases ts with
  | nil =>
      rw [ofChildrenFrom, preorderAll] at inside
      cases inside
  | cons t rest =>
      rw [ofChildrenFrom] at inside
      split at inside
      · rw [preorderAll] at inside
        rcases List.mem_append.mp inside with first | later
        · exact mem_ofConcreteAt ancestors position t first
        · exact mem_ofChildrenFrom ancestors (position + 1) rest later
      · exact mem_ofChildrenFrom ancestors (position + 1) rest inside
termination_by sizeOf ts

end

theorem nodeAt_neat (neat : g.Neat) (site : Site) : (nodeAt g source site).attributes.Neat := by
  have given := neat source site (nodeAt g source site).kind
  show (attributesAt g source site (nodeAt g source site).kind).Neat
  unfold attributesAt
  split <;> grind

end Ast

theorem Parsed.attributes_neat (source : Source) (language : Language) (contentHash : String)
    {n : Node} (inside : n ∈ (Parsed.ofSource source language contentHash).ast.preorder) :
    n.attributes.Neat := by
  obtain ⟨site, rfl⟩ := Ast.mem_ofConcreteAt [] 0 (source.tree language) inside
  exact Ast.nodeAt_neat language.grammar_neat site

end Syntax

end CodeSearch
