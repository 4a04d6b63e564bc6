import CodeSearch.Syntax.Ast
import Mathlib.Data.List.Forall2
import Mathlib.Data.List.Perm.Basic

/-! # The arena of a tree

A loop with a stack puts the named nodes of a tree into an arena and links each one to its parent.
What it makes is the numbered form of the normalized tree, so the order of the nodes and the range
of a subtree are read off the tree. A node is told from all others by the path of positions that
leads to it, as nodes can be alike in everything else; preorder is the order of these paths, in
which a path comes before those that go on from it.
-/

namespace CodeSearch.Syntax

/-! ## Paths along named nodes -/

namespace Concrete

mutual

/-- The paths to the named nodes below a node, after the one to itself, in preorder. -/
def paths : Concrete → List (List Nat)
  | .node _ children => [] :: pathsFrom 0 children

/-- The paths into the named trees among those from `position` on. -/
def pathsFrom (position : Nat) : List Concrete → List (List Nat)
  | [] => []
  | t :: rest =>
    if t.label.named then t.paths.map (position :: ·) ++ pathsFrom (position + 1) rest
    else pathsFrom (position + 1) rest

end

theorem size_le_sizeAll {t : Concrete} {ts : List Concrete} (inside : t ∈ ts) :
    t.size ≤ sizeAll ts := by
  induction ts with
  | nil => cases inside
  | cons first rest ih =>
      rw [sizeAll]
      rcases List.mem_cons.mp inside with rfl | later
      · exact Nat.le_add_right _ _
      · exact Nat.le_add_left_of_le (ih later)

end Concrete

namespace Site

/-- The named node at a position right below a site. -/
def child? (s : Site) (position : Nat) : Option Site :=
  (s.node.children[position]?.filter (·.label.named)).map (⟨·, position, s.node :: s.ancestors⟩)

/-- The node to which a path leads from a site, if it goes along named nodes. -/
def follow? (s : Site) : List Nat → Option Site
  | [] => some s
  | position :: path => (s.child? position).bind (·.follow? path)

/-- The normalized tree of what stands at a site. -/
def ast (g : Grammar) (source : String) (s : Site) : Ast :=
  .ofConcreteAt g source s.ancestors s.position s.node

/-- The paths that begin at a child, seen from its parent. -/
def pathsVia (s : Site) : List (List Nat) :=
  s.node.paths.map (s.position :: ·)

theorem namedFrom_cons (ancestors : List Concrete) (position : Nat) (t : Concrete)
    (rest : List Concrete) : namedFrom ancestors position (t :: rest) =
      if t.label.named then ⟨t, position, ancestors⟩ :: namedFrom ancestors (position + 1) rest
      else namedFrom ancestors (position + 1) rest := by
  simp only [namedFrom, List.zipIdx_cons, List.filter_cons]
  split
  · rfl
  · rfl

theorem pathsFrom_eq (ancestors : List Concrete) (position : Nat) (ts : List Concrete) :
    Concrete.pathsFrom position ts = (namedFrom ancestors position ts).flatMap pathsVia := by
  induction ts generalizing position with
  | nil => rfl
  | cons t rest ih =>
      rw [Concrete.pathsFrom, namedFrom_cons]
      split
      · rw [List.flatMap_cons, ← ih]
        rfl
      · exact ih (position + 1)

theorem paths_eq (s : Site) : s.node.paths = [] :: s.namedBelow.flatMap pathsVia := by
  obtain ⟨⟨label, children⟩, position, ancestors⟩ := s
  exact congrArg ([] :: ·) (pathsFrom_eq _ 0 children)

theorem ofChildrenFrom_eq (g : Grammar) (source : String) (ancestors : List Concrete)
    (position : Nat) (ts : List Concrete) : Ast.ofChildrenFrom g source ancestors position ts =
      (namedFrom ancestors position ts).map (ast g source) := by
  induction ts generalizing position with
  | nil => rfl
  | cons t rest ih =>
      rw [Ast.ofChildrenFrom, namedFrom_cons]
      split
      · rw [List.map_cons, ← ih]
        rfl
      · exact ih (position + 1)

theorem ast_eq (g : Grammar) (source : String) (s : Site) :
    s.ast g source = .node (Ast.nodeAt g source s) (s.namedBelow.map (ast g source)) := by
  obtain ⟨⟨label, children⟩, position, ancestors⟩ := s
  exact congrArg (Ast.node _) (ofChildrenFrom_eq g source _ 0 children)

theorem mem_namedBelow {s c : Site} : c ∈ s.namedBelow ↔ s.child? c.position = some c := by
  obtain ⟨t, position, ancestors⟩ := c
  simp only [namedBelow, namedFrom, child?, List.mem_map, List.mem_filter, Prod.exists,
    List.mem_zipIdx_iff_getElem?, Option.map_eq_some_iff, Option.filter_eq_some_iff]
  constructor
  · rintro ⟨u, i, ⟨there, named⟩, same⟩
    cases same
    exact ⟨t, ⟨there, named⟩, rfl⟩
  · rintro ⟨u, ⟨there, named⟩, same⟩
    cases same
    exact ⟨t, position, ⟨there, named⟩, rfl⟩

theorem child?_position {s c : Site} {position : Nat} (found : s.child? position = some c) :
    c.position = position := by
  obtain ⟨t, -, rfl⟩ := Option.map_eq_some_iff.mp found
  rfl

/-- The named nodes below a site stand in the order of the source. -/
theorem namedBelow_increasing (s : Site) :
    s.namedBelow.Pairwise (·.position < ·.position) := by
  have all : (s.node.children.zipIdx 0).Pairwise (·.2 < ·.2) := by
    rw [← List.pairwise_map, List.zipIdx_map_snd]
    exact List.pairwise_lt_range'
  exact List.pairwise_map.mpr (all.filter _)

theorem size_namedBelow {s c : Site} (inside : c ∈ s.namedBelow) : c.node.size < s.node.size :=
  Nat.lt_of_le_of_lt (Concrete.size_le_sizeAll (List.mem_map_of_mem inside)) s.sizeAll_namedBelow

/-- To prove something of a site, it can be assumed of the named nodes right below. -/
@[elab_as_elim]
theorem below_induction {motive : Site → Prop}
    (step : ∀ s, (∀ c ∈ s.namedBelow, motive c) → motive s) (s : Site) : motive s := by
  induction size : s.node.size using Nat.strongRecOn generalizing s with
  | ind n ih =>
      subst size
      exact step s fun c inside => ih _ (size_namedBelow inside) c rfl

theorem follow?_append (s : Site) (p q : List Nat) :
    s.follow? (p ++ q) = (s.follow? p).bind (·.follow? q) := by
  induction p generalizing s with
  | nil => rfl
  | cons position p ih =>
      rw [List.cons_append, follow?, follow?, Option.bind_assoc]
      exact Option.bind_congr fun c _ => ih c

/-- The paths of a tree are those that lead along named nodes. -/
theorem mem_paths {s : Site} {p : List Nat} : p ∈ s.node.paths ↔ (s.follow? p).isSome := by
  induction p generalizing s with
  | nil => simp [paths_eq, follow?]
  | cons position p ih =>
      rw [paths_eq, follow?]
      simp only [pathsVia, List.mem_cons, reduceCtorEq, false_or, List.mem_flatMap, List.mem_map,
        List.cons.injEq]
      constructor
      · rintro ⟨c, inside, q, hq, rfl, rfl⟩
        rw [mem_namedBelow.mp inside, Option.bind_some]
        exact ih.mp hq
      · intro leads
        cases found : s.child? position with
        | none => simp [found] at leads
        | some c =>
            rw [found, Option.bind_some] at leads
            have here := child?_position found
            exact ⟨c, mem_namedBelow.mpr (here ▸ found), p, ih.mpr leads, here, rfl⟩

/-- Preorder is the order of the paths. -/
theorem paths_increasing (s : Site) : s.node.paths.Pairwise (· < ·) := by
  induction s using below_induction with
  | step s ih =>
      rw [paths_eq, List.pairwise_cons, List.pairwise_flatMap]
      refine ⟨?_, ?_, ?_⟩
      · intro p inside
        obtain ⟨c, -, hp⟩ := List.mem_flatMap.mp inside
        obtain ⟨q, -, rfl⟩ := List.mem_map.mp hp
        exact List.nil_lt_cons _ _
      · intro c inside
        refine List.pairwise_map.mpr ((ih c inside).imp ?_)
        exact fun less => List.cons_lt_cons_iff.mpr (.inr ⟨rfl, less⟩)
      · refine s.namedBelow_increasing.imp fun less p hp q hq => ?_
        obtain ⟨p, -, rfl⟩ := List.mem_map.mp hp
        obtain ⟨q, -, rfl⟩ := List.mem_map.mp hq
        exact List.cons_lt_cons_iff.mpr (.inl less)

theorem paths_nodup (s : Site) : s.node.paths.Nodup :=
  s.paths_increasing.imp fun {p q} (less : p < q) (same : p = q) => List.lt_irrefl q (same ▸ less)

end Site

/-! ## The loop -/

namespace Ast

mutual

theorem length_numberedFrom (first : Nat) (t : Ast) : (t.numberedFrom first).length = t.size := by
  cases t with
  | node data children =>
      rw [numberedFrom, List.length_cons, length_numberedAllFrom, size]
termination_by sizeOf t

theorem length_numberedAllFrom (first : Nat) (ts : List Ast) :
    (numberedAllFrom first ts).length = sizeAll ts := by
  cases ts with
  | nil => rfl
  | cons t rest =>
      rw [numberedAllFrom, List.length_append, length_numberedFrom, length_numberedAllFrom, sizeAll]
termination_by sizeOf ts

end

end Ast

namespace Arena

/-- Put a numbered tree at the end, as the last child of a node, if there is one. -/
def graft (parent : Option Nat) (a : Arena) (t : Ast) : Arena :=
  a.link a.length parent ++ t.numberedFrom a.length

theorem link_at (before after : Arena) (n : Node) (children : List Nat) (number : Nat) :
    link (before ++ (n, children) :: after) number (some before.length) =
      before ++ (n, children ++ [number]) :: after := by
  rw [link, List.modify_eq_take_cons_drop (by simp)]
  simp

/-- What has been put under a node so far is followed by the next children and what is below
    them. -/
theorem graft_children (before after : Arena) (n : Node) (children : List Nat) (ts : List Ast) :
    ts.foldl (graft (some before.length)) (before ++ (n, children) :: after) =
      before ++ (n, children ++ Ast.numbersFrom (before.length + 1 + after.length) ts) ::
        (after ++ Ast.numberedAllFrom (before.length + 1 + after.length) ts) := by
  -- Each tree makes `after` longer, and with it the number of the next one.
  induction ts generalizing children after with
  | nil => simp [Ast.numbersFrom, Ast.numberedAllFrom]
  | cons t rest ih =>
      have number : (before ++ (n, children) :: after).length = before.length + 1 + after.length := by
        simp only [List.length_append, List.length_cons]
        omega
      rw [List.foldl_cons, graft, number, link_at, List.append_assoc, List.cons_append, ih,
        List.length_append, Ast.length_numberedFrom, Ast.numbersFrom, Ast.numberedAllFrom,
        ← Nat.add_assoc, List.append_assoc, List.append_assoc, List.singleton_append]

theorem graft_node (parent : Option Nat) (a : Arena) (n : Node) (ts : List Ast) :
    ts.foldl (graft (some a.length)) (a.append parent n) = graft parent a (.node n ts) := by
  have same : (a.link a.length parent).length = a.length := by
    cases parent with
    | none => rfl
    | some parent => exact List.length_modify ..
  have grafted := graft_children (a.link a.length parent) [] n [] ts
  rw [same] at grafted
  exact grafted

/-- The loop puts the trees of the pending sites one after the other. -/
theorem allocate_eq (g : Grammar) (source : String) (pending : List (Site × Option Nat))
    (a : Arena) :
    allocate g source pending a = pending.foldl (fun a p => graft p.2 a (p.1.ast g source)) a := by
  fun_induction allocate g source pending a with
  | case1 a => rfl
  | case2 a site parent rest ih =>
      rw [ih, List.foldl_append, List.foldl_map, List.foldl_cons, Site.ast_eq, ← graft_node,
        List.foldl_map]

theorem ofConcrete_eq (g : Grammar) (source : String) (t : Concrete) :
    ofConcrete g source t = (Ast.ofConcrete g source t).numbered :=
  allocate_eq g source _ []

end Arena

/-! ## Numbers -/

namespace Ast

theorem le_of_mem_numbersFrom {first n : Nat} {ts : List Ast} (inside : n ∈ numbersFrom first ts) :
    first ≤ n := by
  induction ts generalizing first with
  | nil => cases inside
  | cons t rest ih =>
      rcases List.mem_cons.mp inside with rfl | later
      · exact Nat.le_refl _
      · exact Nat.le_of_add_right_le (ih later)

theorem numbersFrom_increasing (first : Nat) (ts : List Ast) :
    (numbersFrom first ts).Pairwise (· < ·) := by
  induction ts generalizing first with
  | nil => exact .nil
  | cons t rest ih =>
      refine .cons (fun n later => ?_) (ih (first + t.size))
      exact Nat.lt_of_lt_of_le (Nat.lt_add_of_pos_right t.size_pos) (le_of_mem_numbersFrom later)

mutual

/-- Every number of a tree but the first one is that of one child. -/
theorem linked_perm (first : Nat) (t : Ast) :
    (first :: (t.numberedFrom first).flatMap (·.2)).Perm (List.range' first t.size) := by
  cases t with
  | node data children =>
      rw [numberedFrom, List.flatMap_cons, size, List.range'_succ]
      exact (linkedAll_perm (first + 1) children).cons first
termination_by sizeOf t

theorem linkedAll_perm (first : Nat) (ts : List Ast) :
    (numbersFrom first ts ++ (numberedAllFrom first ts).flatMap (·.2)).Perm
      (List.range' first (sizeAll ts)) := by
  cases ts with
  | nil => exact .refl _
  | cons t rest =>
      rw [numbersFrom, numberedAllFrom, sizeAll, List.flatMap_append, List.cons_append,
        ← List.range'_append_1]
      have parts := (linked_perm first t).append (linkedAll_perm (first + t.size) rest)
      exact (List.perm_append_comm_assoc ..).cons first |>.trans parts
termination_by sizeOf ts

end

end Ast

namespace Arena

/-- What begins with two parts goes on with the second one. -/
theorem prefix_drop {α : Type} {x y l : List α} {i : Nat} (h : x ++ y <+: l.drop i) :
    x <+: l.drop i ∧ y <+: l.drop (i + x.length) := by
  obtain ⟨z, whole⟩ := h
  rw [← List.drop_drop, ← whole, List.append_assoc, List.drop_left]
  exact ⟨List.prefix_append _ _, List.prefix_append _ _⟩

theorem prefix_drop_cons {α : Type} {x : α} {y l : List α} {i : Nat} (h : x :: y <+: l.drop i) :
    l[i]? = some x ∧ y <+: l.drop (i + 1) := by
  obtain ⟨⟨z, whole⟩, later⟩ := prefix_drop (x := [x]) h
  have here := congrArg List.head? whole
  rw [List.head?_drop] at here
  exact ⟨here.symm, later⟩

mutual

/-- The descent lists the numbers of a tree that stands in the arena, one after the other, and takes
    a turn for each of them. -/
theorem descend?_node {a : Arena} {i : Nat} {t : Ast} (stands : t.numberedFrom i <+: a.drop i)
    (turns : Nat) (rest listed : List Nat) :
    a.descend? (t.size + turns) (i :: rest) listed =
      a.descend? turns rest (listed ++ List.range' i t.size) := by
  cases t with
  | node data children =>
      obtain ⟨here, below⟩ := prefix_drop_cons stands
      rw [Ast.size, List.range'_succ, Nat.add_right_comm, descend?, here]
      exact (descend?_nodes below turns rest _).trans
        (by rw [List.append_assoc, List.singleton_append])
termination_by sizeOf t

theorem descend?_nodes {a : Arena} {i : Nat} {ts : List Ast}
    (stand : Ast.numberedAllFrom i ts <+: a.drop i) (turns : Nat) (rest listed : List Nat) :
    a.descend? (Ast.sizeAll ts + turns) (Ast.numbersFrom i ts ++ rest) listed =
      a.descend? turns rest (listed ++ List.range' i (Ast.sizeAll ts)) := by
  cases ts with
  | nil => simp [Ast.numbersFrom, Ast.sizeAll]
  | cons t later =>
      obtain ⟨first, others⟩ := prefix_drop stand
      rw [Ast.length_numberedFrom] at others
      rw [Ast.numbersFrom, List.cons_append, Ast.sizeAll, Nat.add_assoc, descend?_node first,
        descend?_nodes others, List.append_assoc, List.range'_append_1]
termination_by sizeOf ts

end

theorem subtree?_eq {a : Arena} {i : Nat} {t : Ast} (stands : t.numberedFrom i <+: a.drop i) :
    a.subtree? i = some (List.range' i t.size) := by
  have few : t.size ≤ a.length := by
    have part := stands.length_le
    rw [Ast.length_numberedFrom, List.length_drop] at part
    omega
  obtain ⟨more, enough⟩ := Nat.exists_eq_add_of_le few
  rw [subtree?, enough, descend?_node stands]
  cases more with
  | zero => rfl
  | succ more => rfl

/-! ## Nodes where they stand -/

/-- The tree of a site is in the arena from a number on, and so are its paths among those from the
    root. -/
structure Stands (g : Grammar) (source : String) (root : Site) (a : Arena) (i : Nat)
    (path : List Nat) (s : Site) : Prop where
  reached : root.follow? path = some s
  nodes : (s.ast g source).numberedFrom i <+: a.drop i
  paths : s.node.paths.map (path ++ ·) <+: root.node.paths.drop i

section

variable {g : Grammar} {source : String} {root s : Site} {a : Arena} {i : Nat} {path : List Nat}

theorem size_ast (g : Grammar) (source : String) (s : Site) :
    (s.ast g source).size = s.node.paths.length := by
  have all (cs : List Site) (ih : ∀ c ∈ cs, (c.ast g source).size = c.node.paths.length) :
      Ast.sizeAll (cs.map (Site.ast g source)) = (cs.flatMap Site.pathsVia).length := by
    induction cs with
    | nil => rfl
    | cons c rest later =>
        obtain ⟨first, others⟩ := List.forall_mem_cons.mp ih
        rw [List.map_cons, Ast.sizeAll, first, later others, List.flatMap_cons, List.length_append,
          Site.pathsVia, List.length_map]
  induction s using Site.below_induction with
  | step s ih => rw [Site.ast_eq, Ast.size, all _ ih, Site.paths_eq, List.length_cons]

theorem Stands.getElem?_node (h : Stands g source root a i path s) :
    a[i]? = some (Ast.nodeAt g source s,
      Ast.numbersFrom (i + 1) (s.namedBelow.map (Site.ast g source))) := by
  have nodes := h.nodes
  rw [Site.ast_eq] at nodes
  exact (prefix_drop_cons nodes).1

theorem Stands.getElem?_path (h : Stands g source root a i path s) : root.node.paths[i]? = some path := by
  have paths := h.paths
  rw [Site.paths_eq, List.map_cons, List.append_nil] at paths
  exact (prefix_drop_cons paths).1

/-- Neighbours stand one after the other. -/
theorem stand_all {cs : List Site}
    (reached : ∀ c ∈ cs, root.follow? (path ++ [c.position]) = some c)
    (nodes : Ast.numberedAllFrom i (cs.map (Site.ast g source)) <+: a.drop i)
    (paths : (cs.flatMap Site.pathsVia).map (path ++ ·) <+: root.node.paths.drop i) :
    List.Forall₂ (fun n c => Stands g source root a n (path ++ [c.position]) c)
      (Ast.numbersFrom i (cs.map (Site.ast g source))) cs := by
  induction cs generalizing i with
  | nil => exact .nil
  | cons c rest ih =>
      obtain ⟨first, others⟩ := List.forall_mem_cons.mp reached
      obtain ⟨nodes, laterNodes⟩ := prefix_drop nodes
      rw [List.flatMap_cons, List.map_append] at paths
      obtain ⟨paths, laterPaths⟩ := prefix_drop paths
      rw [Ast.length_numberedFrom] at laterNodes
      rw [List.length_map, Site.pathsVia, List.length_map, ← size_ast g source] at laterPaths
      refine .cons ⟨first, nodes, ?_⟩ (ih others laterNodes laterPaths)
      simpa [Site.pathsVia, Function.comp_def] using paths

theorem Stands.children (h : Stands g source root a i path s) :
    List.Forall₂ (fun n c => Stands g source root a n (path ++ [c.position]) c)
      (Ast.numbersFrom (i + 1) (s.namedBelow.map (Site.ast g source))) s.namedBelow := by
  have nodes := h.nodes
  rw [Site.ast_eq] at nodes
  have paths := h.paths
  rw [Site.paths_eq, List.map_cons] at paths
  refine stand_all (fun c inside => ?_) (prefix_drop_cons nodes).2 (prefix_drop_cons paths).2
  rw [Site.follow?_append, h.reached, Option.bind_some, Site.follow?, Site.mem_namedBelow.mp inside]
  rfl

/-- What a path leads to stands somewhere. -/
theorem Stands.follow (h : Stands g source root a i path s) {further : List Nat} {below : Site}
    (leads : s.follow? further = some below) :
    ∃ n, Stands g source root a n (path ++ further) below := by
  induction further generalizing i path s with
  | nil =>
      cases leads
      exact ⟨i, (List.append_nil path).symm ▸ h⟩
  | cons position further ih =>
      obtain ⟨c, found, onward⟩ := Option.bind_eq_some_iff.mp leads
      obtain rfl := Site.child?_position found
      obtain ⟨k, inside, rfl⟩ := List.getElem_of_mem (Site.mem_namedBelow.mpr found)
      obtain ⟨n, stands⟩ := ih (h.children.get (h.children.length_eq ▸ inside) inside) onward
      exact ⟨n, List.append_cons path _ further ▸ stands⟩

/-- Each path is one of one number, and there stands what it leads to. -/
theorem Stands.of_path (h : Stands g source root a 0 [] root) {p : List Nat} {n : Nat} {below : Site}
    (here : root.node.paths[n]? = some p) (leads : root.follow? p = some below) :
    Stands g source root a n p below := by
  obtain ⟨m, stands⟩ := h.follow leads
  have inside : m < root.node.paths.length :=
    (List.getElem?_eq_some_iff.mp stands.getElem?_path).1
  obtain rfl := (List.getElem?_inj inside root.paths_nodup).mp
    (stands.getElem?_path.trans here.symm)
  exact stands

/-- The paths of a range of numbers are those that go on from that of the first number. -/
theorem Stands.range_iff (h : Stands g source root a i path s) {n : Nat} :
    i ≤ n ∧ n < i + s.node.paths.length ↔ ∃ p, root.node.paths[n]? = some p ∧ path <+: p := by
  have placed (k : Nat) (less : k < s.node.paths.length) :
      root.node.paths[i + k]? = some (path ++ s.node.paths[k]) := by
    have found := List.prefix_iff_getElem?.mp h.paths k (by rwa [List.length_map])
    rwa [List.getElem?_drop, List.getElem_map] at found
  constructor
  · rintro ⟨first, last⟩
    have found := placed (n - i) (by omega)
    rw [Nat.add_sub_cancel' first] at found
    exact ⟨_, found, List.prefix_append _ _⟩
  · rintro ⟨p, found, further, rfl⟩
    have known : (root.follow? (path ++ further)).isSome :=
      Site.mem_paths.mp (List.mem_of_getElem? found)
    rw [Site.follow?_append, h.reached, Option.bind_some] at known
    obtain ⟨k, inside, rfl⟩ := List.getElem_of_mem (Site.mem_paths.mpr known)
    have less : i + k < root.node.paths.length := (List.getElem?_eq_some_iff.mp (placed k inside)).1
    have same := (List.getElem?_inj less root.paths_nodup).mp ((placed k inside).trans found.symm)
    omega

end

/-! ## Arenas of trees -/

section

variable {g : Grammar} {source : String} {t : Concrete} {a : Arena}
  (whole : a = ((Site.root t).ast g source).numberedFrom 0)

include whole

theorem length_eq : a.length = t.paths.length := by
  rw [whole, Ast.length_numberedFrom]
  exact size_ast g source (.root t)

theorem stands_root : Stands g source (.root t) a 0 [] (.root t) where
  reached := rfl
  nodes := by
    rw [whole]
    exact List.prefix_refl _
  paths := by simp

/-- At every number there stands what the path with this number leads to. -/
theorem exists_stands {n : Nat} {p : List Nat} (here : t.paths[n]? = some p) :
    ∃ s, (Site.root t).follow? p = some s ∧ Stands g source (.root t) a n p s := by
  have known := Site.mem_paths (s := .root t) |>.mp (List.mem_of_getElem? here)
  obtain ⟨s, leads⟩ := Option.isSome_iff_exists.mp known
  exact ⟨s, leads, (stands_root whole).of_path here leads⟩

theorem nodes_eq : a.map (some ·.1) =
    t.paths.map fun p => ((Site.root t).follow? p).map (Ast.nodeAt g source) := by
  refine List.ext_getElem? fun n => ?_
  rw [List.getElem?_map, List.getElem?_map]
  cases here : t.paths[n]? with
  | none =>
      rw [List.getElem?_eq_none_iff, ← length_eq whole, ← List.getElem?_eq_none_iff] at here
      rw [here]
      rfl
  | some p =>
      obtain ⟨s, leads, there⟩ := exists_stands whole here
      rw [there.getElem?_node, Option.map_some, Option.map_some, leads]
      rfl

theorem children_perm : (a.flatMap (·.2)).Perm (List.range' 1 (a.length - 1)) := by
  have linked := Ast.linked_perm 0 ((Site.root t).ast g source)
  have inside : 0 < a.length := (List.getElem?_eq_some_iff.mp (stands_root whole).getElem?_node).1
  obtain ⟨n, more⟩ := Nat.exists_eq_add_one.mpr inside
  rw [← Ast.length_numberedFrom 0, ← whole, more, List.range'_succ] at linked
  rw [more]
  exact linked.cons_inv

end

/-- What an arena has of a tree. -/
structure PreorderOf (g : Grammar) (source : String) (t : Concrete) (a : Arena) : Prop where
  numbered : a = (Ast.ofConcrete g source t).numbered
  /-- Its nodes are those to which the paths of the tree lead, -/
  nodes : a.map (some ·.1) =
    t.paths.map fun p => ((Site.root t).follow? p).map (Ast.nodeAt g source)
  /-- which are all paths from the root along named nodes, -/
  reached : ∀ p, p ∈ t.paths ↔ ((Site.root t).follow? p).isSome
  /-- each of them once and in preorder. -/
  increasing : t.paths.Pairwise (· < ·)
  root : a[0]?.map (·.1.kind) = some .root
  /-- The children of a node are the named nodes right below it, in the order of the source. -/
  children : ∀ (i : Nat) (p : List Nat) (s : Site), t.paths[i]? = some p →
    (Site.root t).follow? p = some s →
      ∃ numbers : List Nat, a[i]? = some (Ast.nodeAt g source s, numbers) ∧
        numbers.map (t.paths[·]?) = s.namedBelow.map fun c => some (p ++ [c.position])
  larger : ∀ (i : Nat) (n : Node) (numbers : List Nat), a[i]? = some (n, numbers) →
    numbers.Pairwise (· < ·) ∧ ∀ child ∈ numbers, i < child
  /-- Every number but that of the root is listed as a child, and only once. -/
  parents : (a.flatMap (·.2)).Perm (List.range' 1 (a.length - 1))
  /-- The descent from a node ends with a range of numbers, which are those of the paths that go on
      from that of the node. -/
  subtree : ∀ (i : Nat) (p : List Nat), t.paths[i]? = some p →
    ∃ count, a.subtree? i = some (List.range' i count) ∧
      ∀ n, n ∈ List.range' i count ↔ ∃ q, t.paths[n]? = some q ∧ p <+: q

/-- The arena of every tree has its named nodes in preorder, with their children and subtrees. -/
theorem ofConcrete_preorder (g : Grammar) (source : String) (t : Concrete) :
    (ofConcrete g source t).PreorderOf g source t := by
  have made := ofConcrete_eq g source t
  generalize ofConcrete g source t = a at made ⊢
  have whole : a = ((Site.root t).ast g source).numberedFrom 0 := made
  constructor
  case numbered => exact made
  case nodes => exact nodes_eq whole
  case reached => exact fun p => Site.mem_paths (s := .root t)
  case increasing => exact (Site.root t).paths_increasing
  case root =>
    rw [(stands_root whole).getElem?_node]
    rfl
  case children =>
    intro i p s here leads
    have there := (stands_root whole).of_path here leads
    refine ⟨_, there.getElem?_node, ?_⟩
    rw [← List.forall₂_eq_eq_eq, List.forall₂_map_left_iff, List.forall₂_map_right_iff]
    exact there.children.imp fun n c below => below.getElem?_path
  case larger =>
    intro i n numbers found
    have inside : i < t.paths.length := length_eq whole ▸ (List.getElem?_eq_some_iff.mp found).1
    obtain ⟨s, -, there⟩ := exists_stands whole (List.getElem?_eq_getElem inside)
    cases there.getElem?_node.symm.trans found
    exact ⟨Ast.numbersFrom_increasing _ _, fun child => Ast.le_of_mem_numbersFrom⟩
  case parents => exact children_perm whole
  case subtree =>
    intro i p here
    obtain ⟨s, -, there⟩ := exists_stands whole here
    refine ⟨(s.ast g source).size, subtree?_eq there.nodes, fun n => ?_⟩
    rw [List.mem_range'_1, size_ast]
    exact there.range_iff

end Arena

end CodeSearch.Syntax
