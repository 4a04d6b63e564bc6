import CodeSearch.Text.Slice

/-! # Concrete syntax trees

A concrete tree is what a grammar makes of a source text: every token is a node, and a node may
hang in its parent under a field name. Only the named nodes go into the normalized tree. Each node
has a span, a range of bytes of the text with the lines it touches.
-/

namespace CodeSearch.Syntax

/-- Bytes from `startByte` up to `endByte`, on the lines `startLine` to `endLine`, of which the
    first one of a text is line 1. -/
structure Span where
  startByte : Nat := 0
  endByte : Nat := 0
  startLine : Nat := 0
  endLine : Nat := 0
  deriving Repr, DecidableEq, Inhabited

namespace Span

/-- Length in bytes; an inverted span has none. -/
def length (s : Span) : Nat :=
  s.endByte - s.startByte

def isEmpty (s : Span) : Bool :=
  s.length == 0

/-- Number of lines that both spans touch. -/
def lineOverlap (a b : Span) : Nat :=
  let first := max a.startLine b.startLine
  let last := min a.endLine b.endLine
  if first ≤ last then last - first + 1 else 0

/-- Whether the bytes of `b` lie within those of `a`. -/
def contains (a b : Span) : Bool :=
  a.startByte ≤ b.startByte && b.endByte ≤ a.endByte

end Span

/-- What is known of a concrete node besides its children. -/
structure Label where
  /-- Node type in the grammar. -/
  kind : String
  /-- Field of the parent under which the node hangs. -/
  field : Option String := none
  named : Bool := true
  /-- The node covers text that the grammar could not read. -/
  error : Bool := false
  /-- The node stands for a token that should have been there. -/
  missing : Bool := false
  /-- The node is erroneous or missing or holds such a node. -/
  hasError : Bool := false
  span : Span := {}
  deriving Repr, DecidableEq, Inhabited

/-- Whether the node is erroneous or missing. -/
def Label.isFault (l : Label) : Bool :=
  l.error || l.missing

/-- A concrete syntax tree. -/
inductive Concrete where
  | node (label : Label) (children : List Concrete)
  deriving Repr, Inhabited

namespace Concrete

def label : Concrete → Label
  | node label _ => label

def children : Concrete → List Concrete
  | node _ children => children

def kind (t : Concrete) : String :=
  t.label.kind

def namedChildren (t : Concrete) : List Concrete :=
  t.children.filter (·.label.named)

def fieldChildren (t : Concrete) (field : String) : List Concrete :=
  t.children.filter (·.label.field == some field)

def fieldChild? (t : Concrete) (field : String) : Option Concrete :=
  t.children.find? (·.label.field == some field)

/-- The text that the node covers. -/
def text (source : String) (t : Concrete) : String :=
  Text.slice source t.label.span.startByte t.label.span.endByte

/-- The text of the first child under a field. -/
def fieldText? (source : String) (t : Concrete) (field : String) : Option String :=
  (t.fieldChild? field).map (text source)

/-- The text of the first child under a field, or nothing. -/
def fieldText (source : String) (t : Concrete) (field : String) : String :=
  (t.fieldText? source field).getD ""

/-- Whether some child is of a kind, as a keyword is. -/
def hasToken (t : Concrete) (kind : String) : Bool :=
  t.children.any (·.kind == kind)

/-- Put the last trees of a depth-annotated preorder list under the nodes before them. -/
def gather : List (Nat × Label) → List (Nat × Concrete)
  | [] => []
  | (depth, label) :: rest =>
    let later := gather rest
    (depth, node label ((later.takeWhile (depth < ·.1)).map (·.2))) ::
      later.dropWhile (depth < ·.1)

/-- The tree whose nodes, in preorder and each with its depth, are given. -/
def ofPreorder? (nodes : List (Nat × Label)) : Option Concrete :=
  (gather nodes).head?.map (·.2)

mutual

/-- Number of nodes. -/
def size : Concrete → Nat
  | node _ children => sizeAll children + 1

def sizeAll : List Concrete → Nat
  | [] => 0
  | t :: rest => size t + sizeAll rest

end

theorem sizeAll_append (a b : List Concrete) : sizeAll (a ++ b) = sizeAll a + sizeAll b := by
  induction a with
  | nil => simp [sizeAll]
  | cons t rest ih => simp [sizeAll, ih, Nat.add_assoc]

theorem sizeAll_filter_le (p : Concrete → Bool) (ts : List Concrete) :
    sizeAll (ts.filter p) ≤ sizeAll ts := by
  induction ts with
  | nil => exact Nat.le_refl _
  | cons t rest ih =>
    rw [List.filter_cons]
    split <;> simp only [sizeAll] <;> omega

/-- The trees right below a node into which a search for errors looks. -/
def suspects (t : Concrete) : List Concrete :=
  t.children.filter fun t => t.label.hasError || t.label.missing

/-- The span of the first erroneous or missing node that a search of the pending trees comes to.
    It goes on with the suspects below a node before the trees that were pending. -/
def errorAmong? (pending : List Concrete) : Option Span :=
  match pending with
  | [] => none
  | t :: rest =>
    if t.label.isFault then some t.label.span else errorAmong? (t.suspects ++ rest)
termination_by sizeAll pending
decreasing_by
  obtain ⟨label, children⟩ := t
  have : sizeAll (suspects (node label children)) ≤ sizeAll children := sizeAll_filter_le _ children
  simp only [sizeAll, size, sizeAll_append]
  omega

def firstError? (t : Concrete) : Option Span :=
  if t.label.hasError then some ((errorAmong? [t]).getD t.label.span) else none

end Concrete

/-- A node where it stands in its tree. -/
structure Site where
  node : Concrete
  /-- Position among all children of the parent. -/
  position : Nat := 0
  /-- The nodes above, nearest first. -/
  ancestors : List Concrete := []
  deriving Repr, Inhabited

namespace Site

/-- The root of a tree. -/
def root (t : Concrete) : Site :=
  { node := t }

def kind (s : Site) : String :=
  s.node.kind

def parent? (s : Site) : Option Concrete :=
  s.ancestors.head?

/-- Whether the parent is of a kind. -/
def isUnder (s : Site) (kind : String) : Bool :=
  s.parent?.any (·.kind == kind)

/-- The sites of the named trees among those that stand from `position` on. -/
def namedFrom (ancestors : List Concrete) (position : Nat) (ts : List Concrete) : List Site :=
  ((ts.zipIdx position).filter (·.1.label.named)).map fun (t, i) => ⟨t, i, ancestors⟩

/-- The sites of the named trees right below a site. -/
def namedBelow (s : Site) : List Site :=
  namedFrom (s.node :: s.ancestors) 0 s.node.children

theorem namedFrom_nodes (ancestors : List Concrete) (position : Nat) (ts : List Concrete) :
    (namedFrom ancestors position ts).map (·.node) = ts.filter (·.label.named) := by
  induction ts generalizing position with
  | nil => rfl
  | cons t rest ih =>
    simp only [namedFrom, List.map_map] at ih
    simp only [namedFrom, List.map_map, List.zipIdx_cons, List.filter_cons]
    split <;> simp [ih]

theorem namedBelow_nodes (s : Site) : s.namedBelow.map (·.node) = s.node.namedChildren :=
  namedFrom_nodes _ _ _

/-- What is below a site is smaller. -/
theorem sizeAll_namedBelow (s : Site) :
    Concrete.sizeAll (s.namedBelow.map (·.node)) < s.node.size := by
  rw [namedBelow_nodes]
  obtain ⟨⟨label, children⟩, position, ancestors⟩ := s
  exact Nat.lt_succ_of_le (Concrete.sizeAll_filter_le _ children)

end Site

end CodeSearch.Syntax
