import CodeSearch.Shape
import Mathlib.Data.Nat.Find
import Mathlib.Logic.Relation
import Mathlib.Tactic.Common

/-! # Shapes as preorders

The nodes of a tree in preorder are told by their depths alone: the parent of a node is the last one
before it whose depth is one less, and what lies below a node are the nodes after it as long as they
are deeper. So the child lists of a shape in preorder follow from its depths, and the loop that
lists descendants ends with consecutive numbers.
-/

namespace CodeSearch

namespace Shape

/-! ## Parents by depth -/

/-- The depth of the node with a number. -/
def depthAt (nodes : List ShapeNode) (i : Nat) : Nat :=
  (nodes[i]?).elim 0 (·.depth.toNat)

theorem depthAt_eq (nodes : List ShapeNode) (i : Nat) :
    depthAt nodes i = ((nodes.map (·.depth))[i]?).elim 0 (·.toNat) := by
  rw [depthAt, List.getElem?_map, Option.elim_map]
  rfl

/-- Of depths in a row, `p` is the last before `i` that is one less. -/
structure IsParent (depth : Nat → Nat) (p i : Nat) : Prop where
  before : p < i
  above : depth p + 1 = depth i
  last : ∀ j, p < j → j < i → depth j + 1 ≠ depth i

theorem IsParent.unique {depth : Nat → Nat} {p q i : Nat} (hp : IsParent depth p i)
    (hq : IsParent depth q i) : p = q := by
  rcases Nat.lt_trichotomy p q with less | same | more
  · exact absurd hq.above (hp.last q less hq.before)
  · exact same
  · exact absurd hp.above (hq.last p more hp.before)

/-- Only the depths up to a node decide of its parent. -/
theorem IsParent.congr {depth depth' : Nat → Nat} {p i : Nat} (same : ∀ j ≤ i, depth j = depth' j)
    (parent : IsParent depth p i) : IsParent depth' p i := by
  have before := Nat.le_of_lt parent.before
  constructor
  case before => exact parent.before
  case above => rw [← same p before, ← same i (Nat.le_refl i), parent.above]
  case last =>
    intro j after earlier
    rw [← same j (Nat.le_of_lt earlier), ← same i (Nat.le_refl i)]
    exact parent.last j after earlier

/-- Nodes in preorder: under the first one, which alone has depth 0, every node has a parent, with
    nothing but deeper nodes between, and the child lists are what the parents tell. -/
structure Ordered (nodes : List ShapeNode) : Prop where
  root : ∀ i < nodes.length, depthAt nodes i = 0 ↔ i = 0
  parent : ∀ i, 0 < i → i < nodes.length → ∃ p, IsParent (depthAt nodes) p i ∧
    ∀ j, p < j → j < i → depthAt nodes p < depthAt nodes j
  children : ∀ (p : Nat) (n : ShapeNode), nodes[p]? = some n → ∀ i,
    i ∈ n.children ↔ i < nodes.length ∧ IsParent (depthAt nodes) p i
  increasing : ∀ (p : Nat) (n : ShapeNode), nodes[p]? = some n → n.children.Pairwise (· < ·)

namespace Ordered

variable {nodes : List ShapeNode} {p i j : Nat} {n : ShapeNode}

theorem between (h : Ordered nodes) (parent : IsParent (depthAt nodes) p i)
    (inside : i < nodes.length) (after : p < j) (before : j < i) :
    depthAt nodes p < depthAt nodes j := by
  obtain ⟨q, parent', deeper⟩ := h.parent i (Nat.zero_lt_of_lt parent.before) inside
  obtain rfl := parent.unique parent'
  exact deeper j after before

/-- The node after another one is its child, if it is deeper. -/
theorem next_child (h : Ordered nodes) (inside : i + 1 < nodes.length)
    (deeper : depthAt nodes i < depthAt nodes (i + 1)) : IsParent (depthAt nodes) i (i + 1) := by
  obtain ⟨p, parent, between⟩ := h.parent (i + 1) (Nat.succ_pos i) inside
  rcases Nat.lt_or_eq_of_le (Nat.le_of_lt_succ parent.before) with less | rfl
  · have := between i less (Nat.lt_succ_self i)
    have := parent.above
    omega
  · exact parent

theorem child_after (h : Ordered nodes) (found : nodes[p]? = some n) (child : i ∈ n.children) :
    p < i :=
  ((h.children p n found i).mp child).2.before

/-- The depths of two lists of nodes in preorder decide of their child lists. -/
theorem children_eq {others : List ShapeNode} (h : Ordered nodes) (h' : Ordered others)
    (depths : nodes.map (·.depth) = others.map (·.depth)) :
    nodes.map (·.children) = others.map (·.children) := by
  have length : nodes.length = others.length := by
    simpa using congrArg List.length depths
  have depth : depthAt nodes = depthAt others := by
    funext i
    rw [depthAt_eq, depthAt_eq, depths]
  refine List.ext_getElem? fun p => ?_
  rw [List.getElem?_map, List.getElem?_map]
  by_cases inside : p < nodes.length
  · obtain ⟨n, found⟩ : ∃ n, nodes[p]? = some n := ⟨_, List.getElem?_eq_getElem inside⟩
    obtain ⟨m, found'⟩ : ∃ m, others[p]? = some m :=
      ⟨_, List.getElem?_eq_getElem (length ▸ inside)⟩
    have same : ∀ i, i ∈ n.children ↔ i ∈ m.children := fun i => by
      rw [h.children p n found, h'.children p m found', length, depth]
    have ordered := h.increasing p n found
    have ordered' := h'.increasing p m found'
    have lists : n.children.Perm m.children :=
      (List.perm_ext_iff_of_nodup (ordered.imp Nat.ne_of_lt) (ordered'.imp Nat.ne_of_lt)).mpr same
    rw [found, found', Option.map_some, Option.map_some,
      lists.eq_of_pairwise (fun _ _ _ _ less more => absurd more (Nat.lt_asymm less)) ordered
        ordered']
  · rw [List.getElem?_eq_none (Nat.le_of_not_lt inside),
      List.getElem?_eq_none (length ▸ Nat.le_of_not_lt inside)]

end Ordered

/-! ## Descendants -/

/-- A node hangs under another one. -/
def IsChild (s : Shape) (i j : Nat) : Prop :=
  ∃ n, s.node? i = some n ∧ j ∈ n.children

/-- The loop that lists descendants takes a number from its stack, lists it if there is such a node,
    and puts the children of the node on top. Started on a stack, it ends having listed `out`. -/
inductive Visits (s : Shape) : (stack out : List Nat) → Prop where
  | done : Visits s [] []
  | absent {i : Nat} {stack out : List Nat} :
      s.node? i = none → Visits s stack out → Visits s (i :: stack) out
  | visit {i : Nat} {n : ShapeNode} {stack out : List Nat} : s.node? i = some n →
      Visits s (n.children ++ stack) out → Visits s (i :: stack) (i :: out)

section

variable {s : Shape} {i j : Nat}

theorem Visits.flatMap {list : Nat → List Nat} {children stack out : List Nat}
    (lists : ∀ c ∈ children, ∀ {stack out}, Visits s stack out →
      Visits s (c :: stack) (list c ++ out))
    (rest : Visits s stack out) : Visits s (children ++ stack) (children.flatMap list ++ out) := by
  induction children with
  | nil => exact rest
  | cons c others ih =>
      rw [List.flatMap_cons, List.append_assoc]
      exact lists c List.mem_cons_self (ih fun d hd => lists d (List.mem_cons_of_mem c hd))

/-- Where children come after their parents, as many levels as there are nodes are enough for the
    loop to end. -/
theorem visits_descendantsWithin (after : ∀ i j, s.IsChild i j → i < j) (levels : Nat)
    (enough : s.size ≤ i + levels) {stack out : List Nat} (rest : Visits s stack out) :
    Visits s (i :: stack) (s.descendantsWithin levels i ++ out) := by
  induction levels generalizing i stack out with
  | zero => exact .absent (List.getElem?_eq_none enough) rest
  | succ levels ih =>
      rw [descendantsWithin]
      split
      · rename_i found
        exact .absent found rest
      · rename_i n found
        refine .visit found (Visits.flatMap (fun c child {stack out} rest' => ?_) rest)
        have later := after i c ⟨n, found, child⟩
        exact ih (by omega) rest'

theorem le_of_reached (after : ∀ i j, s.IsChild i j → i < j)
    (reached : Relation.ReflTransGen s.IsChild i j) : i ≤ j := by
  induction reached with
  | refl => exact Nat.le_refl i
  | tail _ child ih => exact Nat.le_trans ih (Nat.le_of_lt (after _ _ child))

/-- Descendants are what is reached from child to child. -/
theorem mem_descendantsWithin (after : ∀ i j, s.IsChild i j → i < j) (levels : Nat)
    (enough : s.size ≤ i + levels) :
    j ∈ s.descendantsWithin levels i ↔ j < s.size ∧ Relation.ReflTransGen s.IsChild i j := by
  have outside (beyond : s.size ≤ i) :
      ¬(j < s.size ∧ Relation.ReflTransGen s.IsChild i j) := by
    rintro ⟨inside, reached⟩
    have := le_of_reached after reached
    omega
  induction levels generalizing i with
  | zero => exact iff_of_false List.not_mem_nil (outside enough)
  | succ levels ih =>
      rw [descendantsWithin]
      split
      · rename_i absent
        exact iff_of_false List.not_mem_nil (outside (List.getElem?_eq_none_iff.mp absent))
      · rename_i n found
        have inside : i < s.size := (List.getElem?_eq_some_iff.mp found).1
        have below : ∀ c ∈ n.children, (j ∈ s.descendantsWithin levels c ↔
            j < s.size ∧ Relation.ReflTransGen s.IsChild c j) := by
          intro c child
          have later := after i c ⟨n, found, child⟩
          refine ih (by omega) fun beyond => ?_
          rintro ⟨inside, reached⟩
          have := le_of_reached after reached
          omega
        rw [List.mem_cons, List.mem_flatMap, Relation.ReflTransGen.cases_head_iff]
        constructor
        · rintro (rfl | ⟨c, child, listed⟩)
          · exact ⟨inside, .inl rfl⟩
          · obtain ⟨known, reached⟩ := (below c child).mp listed
            exact ⟨known, .inr ⟨c, ⟨n, found, child⟩, reached⟩⟩
        · rintro ⟨known, rfl | ⟨c, ⟨m, found', child⟩, reached⟩⟩
          · exact .inl rfl
          · cases found.symm.trans found'
            exact .inr ⟨c, child, (below c child).mpr ⟨known, reached⟩⟩

end

/-! ## Runs of deeper nodes -/

/-- The nodes after `i` that are deeper end before `stop`. -/
structure EndsAt (depth : Nat → Nat) (size i stop : Nat) : Prop where
  after : i < stop
  inside : stop ≤ size
  deeper : ∀ j, i < j → j < stop → depth i < depth j
  ends : stop < size → depth stop ≤ depth i

theorem exists_endsAt (depth : Nat → Nat) {size i : Nat} (inside : i < size) :
    ∃ stop, EndsAt depth size i stop := by
  have reached : ∃ stop, i < stop ∧ (size ≤ stop ∨ depth stop ≤ depth i) :=
    ⟨size, inside, .inl (Nat.le_refl size)⟩
  obtain ⟨after, ends⟩ := Nat.find_spec reached
  have before : ∀ j, i < j → j < Nat.find reached → j < size ∧ depth i < depth j := by
    intro j later earlier
    have := Nat.find_min reached earlier
    omega
  refine ⟨Nat.find reached, after, ?_, fun j later earlier => (before j later earlier).2, ?_⟩
  · exact Nat.find_min' reached ⟨inside, .inl (Nat.le_refl size)⟩
  · exact fun more => ends.resolve_left (Nat.not_le_of_lt more)

/-- In the run of a node, from a child on, lie the runs of the children from there on. -/
theorem flatMap_children {depth : Nat → Nat} {size i stop : Nat} (ends : EndsAt depth size i stop)
    {list : Nat → List Nat}
    (lists : ∀ c e, i < c → EndsAt depth size c e → list c = List.range' c (e - c))
    {children : List Nat} (increasing : children.Pairwise (· < ·)) {c : Nat} (after : i < c)
    (inside : c ≤ stop) (here : c < stop → IsParent depth i c)
    (known : ∀ x, x ∈ children ↔ c ≤ x ∧ x < stop ∧ IsParent depth i x) :
    children.flatMap list = List.range' c (stop - c) := by
  induction children generalizing c with
  | nil =>
      have all : ¬ c < stop := fun more =>
        List.not_mem_nil ((known c).mpr ⟨Nat.le_refl c, more, here more⟩)
      rw [Nat.sub_eq_zero_of_le (Nat.le_of_not_lt all)]
      rfl
  | cons x rest ih =>
      obtain ⟨first, increasing⟩ := List.pairwise_cons.mp increasing
      obtain ⟨le, before, child⟩ := (known x).mp List.mem_cons_self
      have same : x = c := by
        have more : c < stop := Nat.lt_of_le_of_lt le before
        rcases List.mem_cons.mp ((known c).mpr ⟨Nat.le_refl c, more, here more⟩) with same | later
        · exact same.symm
        · have := first c later
          omega
      subst same
      obtain ⟨e, run⟩ := exists_endsAt depth (Nat.lt_of_lt_of_le before ends.inside)
      have deep := child.above
      have within : e ≤ stop := by
        by_contra beyond
        have := run.deeper stop before (by omega)
        have := ends.ends (by have := run.inside; omega)
        omega
      have next : e < stop → IsParent depth i e := by
        intro more
        have := run.ends (Nat.lt_of_lt_of_le more ends.inside)
        have := ends.deeper e (Nat.lt_trans after run.after) more
        refine ⟨Nat.lt_trans after run.after, by omega, fun j later earlier => ?_⟩
        have := ends.deeper j later (Nat.lt_trans earlier more)
        omega
      have others : ∀ y, y ∈ rest ↔ e ≤ y ∧ y < stop ∧ IsParent depth i y := by
        intro y
        constructor
        · intro listed
          obtain ⟨-, earlier, child'⟩ := (known y).mp (List.mem_cons_of_mem x listed)
          refine ⟨?_, earlier, child'⟩
          by_contra inRun
          have := run.deeper y (first y listed) (by omega)
          have := child'.above
          omega
        · rintro ⟨later, earlier, child'⟩
          have := run.after
          rcases List.mem_cons.mp ((known y).mpr ⟨by omega, earlier, child'⟩) with same | listed
          · omega
          · exact listed
      rw [List.flatMap_cons, lists x e after run,
        ih increasing (Nat.lt_trans after run.after) within next others]
      have := run.after
      have cut := List.range'_append_1 (s := x) (m := e - x) (n := stop - e)
      rwa [show x + (e - x) = e by omega, show e - x + (stop - e) = stop - x by omega] at cut

theorem Ordered.descendantsWithin_eq {s : Shape} {i stop : Nat} (h : Ordered s.nodes)
    (levels : Nat) (enough : s.size ≤ i + levels)
    (ends : EndsAt (depthAt s.nodes) s.size i stop) :
    s.descendantsWithin levels i = List.range' i (stop - i) := by
  induction levels generalizing i stop with
  | zero =>
      have := ends.after
      have := ends.inside
      omega
  | succ levels ih =>
      have inside : i < s.size := Nat.lt_of_lt_of_le ends.after ends.inside
      have found : s.node? i = some s.nodes[i] := List.getElem?_eq_getElem inside
      have children : ∀ x, x ∈ s.nodes[i].children ↔
          i + 1 ≤ x ∧ x < stop ∧ IsParent (depthAt s.nodes) i x := by
        intro x
        rw [h.children i _ found]
        constructor
        · rintro ⟨known, child⟩
          refine ⟨child.before, ?_, child⟩
          by_contra beyond
          have less := ends.ends (by have := known; unfold size; omega)
          rcases Nat.lt_or_eq_of_le (Nat.le_of_not_lt beyond) with later | rfl
          · have := h.between child known ends.after later
            omega
          · have := child.above
            omega
        · rintro ⟨-, before, child⟩
          exact ⟨Nat.lt_of_lt_of_le before ends.inside, child⟩
      have first : i + 1 < stop → IsParent (depthAt s.nodes) i (i + 1) := fun more =>
        h.next_child (Nat.lt_of_lt_of_le more ends.inside)
          (ends.deeper (i + 1) (Nat.lt_succ_self i) more)
      have below : s.nodes[i].children.flatMap (s.descendantsWithin levels) =
          List.range' (i + 1) (stop - (i + 1)) :=
        flatMap_children ends (fun c e later run => ih (by omega) run) (h.increasing i _ found)
          (Nat.lt_succ_self i) ends.after first children
      have whole : stop - i = stop - (i + 1) + 1 := by
        have := ends.after
        omega
      simp only [descendantsWithin, found]
      rw [below, whole, List.range'_succ]

/-! ## Shapes in preorder -/

/-- A shape is in preorder. -/
structure InPreorder (s : Shape) : Prop where
  /-- The first node, and no other, has depth 0. -/
  root : ∀ i n, s.node? i = some n → (n.depth = 0 ↔ i = 0)
  /-- Every other node stands in one child list, that of the last node before it whose depth is one
      less. -/
  placed : ∀ i, 0 < i → i < s.size → ∃ p, IsParent (depthAt s.nodes) p i ∧
    ∀ q n, s.node? q = some n → (i ∈ n.children ↔ q = p)
  /-- Nothing else stands in a child list. -/
  known : ∀ q n, s.node? q = some n → ∀ i ∈ n.children, 0 < i ∧ i < s.size
  increasing : ∀ q n, s.node? q = some n → n.children.Pairwise (· < ·)
  /-- The loop that lists descendants ends. It lists the node and what is reached from it from child
      to child, and these are consecutive. -/
  descendants : ∀ i < s.size, Visits s [i] (s.descendants i) ∧
    s.descendants i = List.range' i (s.descendants i).length ∧
    ∀ j, j ∈ s.descendants i ↔ Relation.ReflTransGen s.IsChild i j

theorem Ordered.inPreorder {s : Shape} (h : Ordered s.nodes) : s.InPreorder := by
  have after : ∀ i j, s.IsChild i j → i < j := by
    rintro i j ⟨n, found, child⟩
    exact h.child_after found child
  constructor
  case root =>
    intro i n found
    have inside : i < s.nodes.length := (List.getElem?_eq_some_iff.mp found).1
    have depth : depthAt s.nodes i = n.depth.toNat := by
      rw [depthAt, show s.nodes[i]? = some n from found]
      rfl
    rw [← h.root i inside, depth, ← UInt32.toNat_inj]
    rfl
  case placed =>
    intro i positive inside
    obtain ⟨p, parent, -⟩ := h.parent i positive inside
    refine ⟨p, parent, fun q n found => ?_⟩
    rw [h.children q n found]
    constructor
    · exact fun ⟨_, parent'⟩ => parent'.unique parent
    · rintro rfl
      exact ⟨inside, parent⟩
  case known =>
    intro q n found i child
    obtain ⟨inside, parent⟩ := (h.children q n found i).mp child
    exact ⟨Nat.zero_lt_of_lt parent.before, inside⟩
  case increasing => exact h.increasing
  case descendants =>
    intro i inside
    have enough : s.size ≤ i + s.size := Nat.le_add_left s.size i
    refine ⟨?_, ?_, fun j => ?_⟩
    · simpa [Shape.descendants] using visits_descendantsWithin after s.size enough .done
    · obtain ⟨stop, ends⟩ := exists_endsAt (depthAt s.nodes) inside
      rw [Shape.descendants, h.descendantsWithin_eq s.size enough ends, List.length_range']
    · rw [Shape.descendants, mem_descendantsWithin after s.size enough]
      refine ⟨And.right, fun reached => ⟨?_, reached⟩⟩
      cases reached with
      | refl => exact inside
      | tail _ child =>
          obtain ⟨n, found, child⟩ := child
          exact ((h.children _ n found j).mp child).1

end Shape

end CodeSearch
