import CodeSearch.Grammar.Basic

/-! # Normalized syntax trees

The normalized tree of a source keeps the named nodes of the concrete tree, each with its kind in
the shared vocabulary and its attributes. The numbered form lists the nodes in preorder, so that a
node's number is its position and children are given by their numbers. It is what a loop makes that
puts one node after the other into an arena.
-/

namespace CodeSearch.Syntax

/-- A normalized node without its children. -/
structure Node where
  kind : NodeKind
  /-- Node type in the grammar. -/
  raw : String
  span : Span
  attributes : Attributes := {}
  deriving Repr, DecidableEq, Inhabited

namespace Node

def name? (n : Node) : Option String :=
  n.attributes.get? .name

def text (source : String) (n : Node) : String :=
  Text.slice source n.span.startByte n.span.endByte

end Node

/-- A normalized tree. -/
inductive Ast where
  | node (data : Node) (children : List Ast)
  deriving Repr, Inhabited

namespace Ast

def data : Ast → Node
  | node data _ => data

def children : Ast → List Ast
  | node _ children => children

/-- The attributes of a node; an identifier or parameter that the grammar gives no name is named
    by its text. -/
def attributesAt (g : Grammar) (source : String) (site : Site) (kind : NodeKind) : Attributes :=
  let attributes := g.annotate source site kind
  match kind with
  | .identifier | .parameter =>
    if attributes.has .name then attributes else attributes.set .name (site.node.text source)
  | _ => attributes

/-- The normalized node at a site; without ancestors it is the root. -/
def nodeAt (g : Grammar) (source : String) (site : Site) : Node :=
  let kind := if site.ancestors.isEmpty then .root else g.classify source site
  { kind, raw := site.kind, span := site.node.label.span,
    attributes := attributesAt g source site kind }

mutual

/-- Normalize the tree that stands at `position` under `ancestors`. -/
def ofConcreteAt (g : Grammar) (source : String) (ancestors : List Concrete) (position : Nat) :
    Concrete → Ast
  | .node label children =>
    let t := Concrete.node label children
    node (nodeAt g source ⟨t, position, ancestors⟩)
      (ofChildrenFrom g source (t :: ancestors) 0 children)

/-- Normalize the named trees among those from `position` on. -/
def ofChildrenFrom (g : Grammar) (source : String) (ancestors : List Concrete) (position : Nat) :
    List Concrete → List Ast
  | [] => []
  | t :: rest =>
    if t.label.named then
      ofConcreteAt g source ancestors position t ::
        ofChildrenFrom g source ancestors (position + 1) rest
    else ofChildrenFrom g source ancestors (position + 1) rest

end

/-- The normalized tree of a source. -/
def ofConcrete (g : Grammar) (source : String) (t : Concrete) : Ast :=
  ofConcreteAt g source [] 0 t

mutual

/-- Number of nodes. -/
def size : Ast → Nat
  | node _ children => sizeAll children + 1

def sizeAll : List Ast → Nat
  | [] => 0
  | t :: rest => size t + sizeAll rest

end

theorem size_pos (t : Ast) : 0 < t.size := by
  cases t
  simp [size]

mutual

def preorder : Ast → List Node
  | node data children => data :: preorderAll children

def preorderAll : List Ast → List Node
  | [] => []
  | t :: rest => preorder t ++ preorderAll rest

end

/-- The numbers of neighbouring trees of which the first one has number `first`. -/
def numbersFrom (first : Nat) : List Ast → List Nat
  | [] => []
  | t :: rest => first :: numbersFrom (first + t.size) rest

mutual

/-- The nodes in preorder with the numbers of their children; the root has number `first`. -/
def numberedFrom (first : Nat) : Ast → List (Node × List Nat)
  | node data children =>
    (data, numbersFrom (first + 1) children) :: numberedAllFrom (first + 1) children

def numberedAllFrom (first : Nat) : List Ast → List (Node × List Nat)
  | [] => []
  | t :: rest => numberedFrom first t ++ numberedAllFrom (first + t.size) rest

end

def numbered (t : Ast) : List (Node × List Nat) :=
  numberedFrom 0 t

end Ast

/-- Nodes in a row, each with the numbers of its children. -/
abbrev Arena := List (Node × List Nat)

namespace Arena

/-- Put a number behind those of the children of a node, if there is one. -/
def link (a : Arena) (number : Nat) : Option Nat → Arena
  | none => a
  | some parent => a.modify parent fun (n, children) => (n, children ++ [number])

/-- Put a node at the end, as the last child of its parent, if it has one. -/
def append (a : Arena) (parent : Option Nat) (n : Node) : Arena :=
  a.link a.length parent ++ [(n, [])]

/-- Put the nodes of the pending sites and of what is below them into the arena, each under the node
    of its parent. The sites below a node come before those that were pending. -/
def allocate (g : Grammar) (source : String) (pending : List (Site × Option Nat)) (a : Arena) :
    Arena :=
  match pending with
  | [] => a
  | (site, parent) :: rest =>
    allocate g source (site.namedBelow.map (·, some a.length) ++ rest)
      (a.append parent (Ast.nodeAt g source site))
termination_by Concrete.sizeAll (pending.map (·.1.node))
decreasing_by
  have := site.sizeAll_namedBelow
  simp [Concrete.sizeAll, Concrete.sizeAll_append, Function.comp_def]
  omega

/-- The nodes of a concrete tree. -/
def ofConcrete (g : Grammar) (source : String) (t : Concrete) : Arena :=
  allocate g source [(.root t, none)] []

/-- Turn by turn, take a number from the stack, add it to `listed` and put those of its children on
    the stack. Nothing when a number has no node, or when numbers are left after all turns. -/
def descend? (a : Arena) (turns : Nat) (stack listed : List Nat) : Option (List Nat) :=
  match turns, stack with
  | _, [] => some listed
  | 0, _ :: _ => none
  | turns + 1, i :: rest =>
    match a[i]? with
    | none => none
    | some (_, children) => descend? a turns (children ++ rest) (listed ++ [i])

/-- The numbers of a node and of the nodes below it. Every turn lists one number, so that below a
    node of a tree there are never more turns than the tree has nodes. -/
def subtree? (a : Arena) (i : Nat) : Option (List Nat) :=
  a.descend? a.length [i] []

end Arena

end CodeSearch.Syntax
