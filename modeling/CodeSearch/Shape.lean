import CodeSearch.Digest.Blake3
import CodeSearch.Syntax.Ast

/-! # Shapes

The shape of a definition is its normalized tree without comments, plain names and wrapper nodes,
listed in preorder. Two definitions are compared by shape alone; the labels kept beside it serve
the pattern rules.
-/

namespace CodeSearch

open Syntax

structure ShapeNode where
  kind : NodeKind
  /-- Number of nodes above it. -/
  depth : UInt32
  /-- Name, callee or made type. -/
  label : Option String := none
  receiver : Option String := none
  /-- The receiver is the object itself. -/
  onSelf : Bool := false
  /-- The receiver is a field of the object. -/
  viaField : Bool := false
  isStatic : Bool := false
  children : List Nat := []
  deriving Repr, DecidableEq, Inhabited

/-- A shape: its nodes in preorder, and whether some were left out. -/
structure Shape where
  nodes : List ShapeNode := []
  truncated : Bool := false
  deriving Repr, DecidableEq, Inhabited

namespace Shape

/-- Greatest number of nodes of a shape. -/
def maxNodes : Nat := 4096

def size (s : Shape) : Nat :=
  s.nodes.length

def isEmpty (s : Shape) : Bool :=
  s.nodes.isEmpty

def root? (s : Shape) : Option ShapeNode :=
  s.nodes.head?

def node? (s : Shape) (i : Nat) : Option ShapeNode :=
  s.nodes[i]?

def childrenOf (s : Shape) (n : ShapeNode) : List ShapeNode :=
  n.children.filterMap s.node?

/-- The numbers of the nodes below node `i` and of itself in preorder, down to `depth` levels. -/
def descendantsWithin (s : Shape) : (depth i : Nat) → List Nat
  | 0, _ => []
  | depth + 1, i =>
    match s.node? i with
    | none => []
    | some n => i :: n.children.flatMap (descendantsWithin s depth)

/-- The numbers of the nodes below node `i` and of itself in preorder. No path has more levels
    than the shape has nodes. -/
def descendants (s : Shape) (i : Nat) : List Nat :=
  descendantsWithin s s.size i

/-- The kinds and depths in preorder: all that a comparison looks at. -/
def skeleton (s : Shape) : List (NodeKind × UInt32) :=
  s.nodes.map fun n => (n.kind, n.depth)

/-- The hash of kinds and depths. -/
def structuralHash (s : Shape) : String :=
  Digest.Blake3.hexHash <| s.skeleton.flatMap fun (kind, depth) =>
    Digest.utf8 kind.name ++ Digest.Blake3.littleEndian depth

/-- Names of the receiver inside a definition: those of the language and those that methods
    declare. -/
def receiverNames (t : Ast) (selfNames : List String) : List String :=
  selfNames ++ t.preorder.filterMap (·.attributes.get? .selfName)

/-- Whether a receiver expression goes through a field of one of the receivers. -/
def isViaField (receivers : List String) (expression : String) : Bool :=
  receivers.any fun name =>
    match Text.stripStart? expression name with
    | none => false
    | some rest => Text.startsWith rest "." && 1 < rest.utf8ByteSize

/-- What the shape keeps of a node: its kind in the shape, nothing with its subtree, or only the
    nodes below it. -/
inductive Role where
  | keep (kind : NodeKind)
  | drop
  | splice
  deriving Repr, DecidableEq

/-- Comments and plain names are dropped, receivers kept, and wrapper nodes other than the root
    spliced. -/
def roleOf (receivers : List String) (isRoot : Bool) (n : Node) : Role :=
  match n.kind with
  | .comment => .drop
  | .other => if isRoot then .keep .other else .splice
  | .root => if isRoot then .keep .root else .splice
  | .identifier =>
    match n.name? with
    | some name => if receivers.contains name then .keep .selfRef else .drop
    | none => .drop
  | kind => .keep kind

def labelOf (kind : NodeKind) (t : Ast) : Option String :=
  match kind with
  | .call => t.data.attributes.get? .callee
  | .construct => (t.data.attributes.get? .construct).or (t.data.attributes.get? .callee)
  | .returning =>
    match t.children with
    | first :: _ => if first.data.kind == .identifier then first.data.name? else none
    | [] => none
  | .selfRef | .literal | .block | .operator => none
  | _ => t.data.name?

/-- The node that the shape has for a tree, without its children. -/
def nodeOf (receivers : List String) (kind : NodeKind) (depth : UInt32) (t : Ast) : ShapeNode :=
  let receiver := t.data.attributes.get? .receiver
  { kind, depth, label := labelOf kind t, receiver
    onSelf := receiver.any receivers.contains
    viaField := receiver.any (isViaField receivers)
    isStatic := t.data.attributes.isSet .static }

/-- Put a node under its parent, given by number. -/
def append (nodes : List ShapeNode) (parent : Option Nat) (n : ShapeNode) : List ShapeNode :=
  let linked :=
    match parent with
    | none => nodes
    | some p => nodes.modify p fun q => { q with children := q.children ++ [nodes.length] }
  linked ++ [n]

/-- The depth of a node under a parent, given by number. -/
def depthUnder (nodes : List ShapeNode) (parent : Option Nat) : UInt32 :=
  ((parent.bind (nodes[·]?)).map (·.depth + 1)).getD 0

/-- The trees whose nodes come below the node of a tree. Literals and receivers are leaves. -/
def below (kind : NodeKind) (t : Ast) : List Ast :=
  match kind with
  | .literal | .selfRef => []
  | _ => t.children

def pendingSize (pending : List (Ast × Option Nat)) : Nat :=
  Ast.sizeAll (pending.map (·.1))

theorem sizeAll_append (a b : List Ast) :
    Ast.sizeAll (a ++ b) = Ast.sizeAll a + Ast.sizeAll b := by
  induction a with
  | nil => simp [Ast.sizeAll]
  | cons t rest ih => simp [Ast.sizeAll, ih, Nat.add_assoc]

theorem pendingSize_children (t : Ast) (parent : Option Nat)
    (rest : List (Ast × Option Nat)) :
    pendingSize (t.children.map (·, parent) ++ rest) < pendingSize ((t, parent) :: rest) := by
  cases t
  simp [pendingSize, sizeAll_append, Ast.sizeAll, Ast.size, Ast.children, Function.comp_def]

theorem pendingSize_below (kind : NodeKind) (t : Ast) (parent number : Option Nat)
    (rest : List (Ast × Option Nat)) :
    pendingSize ((below kind t).map (·, number) ++ rest) < pendingSize ((t, parent) :: rest) := by
  cases t
  unfold below
  split <;> simp [pendingSize, sizeAll_append, Ast.sizeAll, Ast.size, Ast.children,
    Function.comp_def]

/-- Copy the pending trees, each under the node of its parent, until the shape has as many nodes
    as the limit allows, if there is one. -/
def copy (limit : Option Nat) (receivers : List String) (pending : List (Ast × Option Nat))
    (nodes : List ShapeNode) : Shape :=
  match pending with
  | [] => ⟨nodes, false⟩
  | (t, parent) :: rest =>
    match roleOf receivers parent.isNone t.data with
    | .drop => copy limit receivers rest nodes
    | .splice => copy limit receivers (t.children.map (·, parent) ++ rest) nodes
    | .keep kind =>
      if limit.any (· ≤ nodes.length) then ⟨nodes, true⟩
      else
        copy limit receivers ((below kind t).map (·, some nodes.length) ++ rest)
          (append nodes parent (nodeOf receivers kind (depthUnder nodes parent) t))
termination_by pendingSize pending
decreasing_by
  · cases t
    simp [pendingSize, Ast.sizeAll, Ast.size]
  · exact pendingSize_children t parent rest
  · exact pendingSize_below kind t parent _ rest

/-- The shape of a definition, in whose language the receiver has the given names. -/
def ofAst (t : Ast) (selfNames : List String) : Shape :=
  copy (some maxNodes) (receiverNames t selfNames) [(t, none)] []

/-- Whether some node satisfies `p`. -/
def any (s : Shape) (p : ShapeNode → Bool) : Bool :=
  s.nodes.any p

/-- Number of nodes that satisfy `p`. -/
def count (s : Shape) (p : ShapeNode → Bool) : Nat :=
  s.nodes.countP p

end Shape

end CodeSearch
