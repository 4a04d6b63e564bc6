import CodeSearch.Proofs.Shape.Preorder

/-! # The copied shape

The copy takes one pending tree after the other and puts a node under the parent that the tree
waits for. The parents of the pending trees are open: nothing but what lies below them was added
since. They come with falling numbers, so that a node added under the first one leaves the others
open, and a new node is always placed as its depth tells. Hence the nodes are in preorder at every
step. What the limit cuts off are the nodes with greater numbers, since an added node changes
nothing but the child list of its parent, where it puts its own number.
-/

namespace CodeSearch.Shape

open Syntax

/-! ## Adding a node -/

/-- A node with one more child. -/
def withChild (n : ShapeNode) (number : Nat) : ShapeNode :=
  { n with children := n.children ++ [number] }

section

variable {nodes : List ShapeNode} {p i : Nat} {n : ShapeNode}

theorem append_eq (nodes : List ShapeNode) (p : Nat) (n : ShapeNode) :
    append nodes (some p) n = nodes.modify p (withChild · nodes.length) ++ [n] := rfl

theorem length_append (parent : Option Nat) :
    (append nodes parent n).length = nodes.length + 1 := by
  cases parent <;> simp [append]

theorem getElem?_append_last (parent : Option Nat) :
    (append nodes parent n)[nodes.length]? = some n := by
  cases parent <;> simp [append]

theorem getElem?_append_before (inside : i < nodes.length) : (append nodes (some p) n)[i]? =
    nodes[i]?.map fun m => if p = i then withChild m nodes.length else m := by
  rw [append_eq, List.getElem?_append_left (by simpa using inside), List.getElem?_modify]
  split <;> simp

/-- A node of the longer list is an old one, maybe with one more child, or the new one. -/
theorem append_cases {m : ShapeNode} (found : (append nodes (some p) n)[i]? = some m) :
    (i < nodes.length ∧ ∃ old, nodes[i]? = some old ∧
      m = if p = i then withChild old nodes.length else old) ∨ i = nodes.length ∧ m = n := by
  have inside := (List.getElem?_eq_some_iff.mp found).1
  rw [length_append] at inside
  rcases Nat.lt_or_eq_of_le (Nat.le_of_lt_succ inside) with before | rfl
  · rw [getElem?_append_before before, Option.map_eq_some_iff] at found
    obtain ⟨old, known, same⟩ := found
    exact .inl ⟨before, old, known, same.symm⟩
  · rw [getElem?_append_last, Option.some.injEq] at found
    exact .inr ⟨rfl, found.symm⟩

/-- Added nodes do not change the depths of the others. -/
theorem depthAt_append_before (inside : i < nodes.length) :
    depthAt (append nodes (some p) n) i = depthAt nodes i := by
  rw [depthAt, depthAt, getElem?_append_before inside]
  cases nodes[i]? with
  | none => rfl
  | some m =>
      rw [Option.map_some]
      split <;> rfl

theorem depthAt_append_last (parent : Option Nat) :
    depthAt (append nodes parent n) nodes.length = n.depth.toNat := by
  rw [depthAt, getElem?_append_last]
  rfl

theorem isParent_append_before (inside : i < nodes.length) {q : Nat} :
    IsParent (depthAt (append nodes (some p) n)) q i ↔ IsParent (depthAt nodes) q i := by
  have same (j : Nat) (known : j ≤ i) : depthAt (append nodes (some p) n) j = depthAt nodes j :=
    depthAt_append_before (Nat.lt_of_le_of_lt known inside)
  exact ⟨.congr same, .congr fun j known => (same j known).symm⟩

theorem mem_withChild {m : ShapeNode} {q number : Nat} :
    i ∈ (if p = q then withChild m number else m).children ↔
      i ∈ m.children ∨ p = q ∧ i = number := by
  split
  · rename_i same
    simp [withChild, same]
  · rename_i other
    simp [other]

end

/-! ## Open nodes -/

/-- Nothing but deeper nodes were added since. -/
def Open (nodes : List ShapeNode) (p : Nat) : Prop :=
  p < nodes.length ∧ ∀ j, p < j → j < nodes.length → depthAt nodes p < depthAt nodes j

section

variable {nodes : List ShapeNode} {p q : Nat} {n : ShapeNode}

theorem Open.last (parent : Option Nat) : Open (append nodes parent n) nodes.length := by
  rw [Open, length_append]
  exact ⟨Nat.lt_succ_self _, fun j after inside => by omega⟩

/-- A node that is added under one open node leaves open what was so before that. -/
theorem Open.append (isOpen : Open nodes p) (other : Open nodes q) (before : q ≤ p)
    (deep : n.depth.toNat = depthAt nodes p + 1) : Open (append nodes (some p) n) q := by
  rw [Open, length_append]
  refine ⟨Nat.lt_succ_of_lt other.1, fun j after inside => ?_⟩
  rw [depthAt_append_before other.1]
  rcases Nat.lt_or_eq_of_le (Nat.le_of_lt_succ inside) with earlier | rfl
  · rw [depthAt_append_before earlier]
    exact other.2 j after earlier
  · rw [depthAt_append_last, deep]
    rcases Nat.lt_or_eq_of_le before with less | rfl
    · exact Nat.lt_succ_of_lt (other.2 p less isOpen.1)
    · exact Nat.lt_succ_self _

/-- The new node stands where its depth says. -/
theorem Open.isParent (isOpen : Open nodes p) (deep : n.depth.toNat = depthAt nodes p + 1) :
    IsParent (depthAt (Shape.append nodes (some p) n)) p nodes.length := by
  refine ⟨isOpen.1, ?_, fun j after before => ?_⟩
  · rw [depthAt_append_before isOpen.1, depthAt_append_last, deep]
  · have := isOpen.2 j after before
    rw [depthAt_append_before before, depthAt_append_last, deep]
    omega

/-- A node under an open one keeps the order. -/
theorem Ordered.append (h : Ordered nodes) (isOpen : Open nodes p) (leaf : n.children = [])
    (deep : n.depth.toNat = depthAt nodes p + 1) : Ordered (append nodes (some p) n) := by
  have parent := isOpen.isParent deep
  have before_or_last {i : Nat} (inside : i < (Shape.append nodes (some p) n).length) :
      i < nodes.length ∨ i = nodes.length := by
    rw [length_append] at inside
    omega
  constructor
  case root =>
    intro i inside
    rcases before_or_last inside with before | rfl
    · rw [depthAt_append_before before]
      exact h.root i before
    · have := isOpen.1
      rw [depthAt_append_last, deep]
      omega
  case parent =>
    intro i positive inside
    rcases before_or_last inside with before | rfl
    · obtain ⟨q, parent', between⟩ := h.parent i positive before
      refine ⟨q, (isParent_append_before before).mpr parent', fun j after earlier => ?_⟩
      rw [depthAt_append_before (Nat.lt_trans parent'.before before),
        depthAt_append_before (Nat.lt_trans earlier before)]
      exact between j after earlier
    · refine ⟨p, parent, fun j after earlier => ?_⟩
      rw [depthAt_append_before isOpen.1, depthAt_append_before earlier]
      exact isOpen.2 j after earlier
  case children =>
    intro q m found i
    rw [length_append]
    rcases append_cases found with ⟨-, old, known, rfl⟩ | ⟨rfl, rfl⟩
    · rw [mem_withChild, h.children q old known]
      constructor
      · rintro (⟨earlier, parent'⟩ | ⟨rfl, rfl⟩)
        · exact ⟨Nat.lt_succ_of_lt earlier, (isParent_append_before earlier).mpr parent'⟩
        · exact ⟨Nat.lt_succ_self _, parent⟩
      · rintro ⟨inside, parent'⟩
        rcases Nat.lt_or_eq_of_le (Nat.le_of_lt_succ inside) with earlier | rfl
        · exact .inl ⟨earlier, (isParent_append_before earlier).mp parent'⟩
        · exact .inr ⟨parent.unique parent', rfl⟩
    · rw [leaf]
      refine iff_of_false List.not_mem_nil ?_
      rintro ⟨inside, parent'⟩
      have := parent'.before
      omega
  case increasing =>
    intro q m found
    rcases append_cases found with ⟨-, old, known, rfl⟩ | ⟨-, rfl⟩
    · split
      · refine List.pairwise_append.mpr ⟨h.increasing q old known, List.pairwise_singleton _ _, ?_⟩
        intro i child j new
        rw [List.mem_singleton.mp new]
        exact ((h.children q old known i).mp child).1
      · exact h.increasing q old known
    · rw [leaf]
      exact List.Pairwise.nil

end

/-! ## The copy in order -/

/-- The pending trees wait for open nodes, which come with falling numbers. -/
structure Waiting (nodes : List ShapeNode) (pending : List (Ast × Option Nat)) : Prop where
  attached : ∀ e ∈ pending, ∃ p, e.2 = some p ∧ Open nodes p
  falling : pending.Pairwise fun e f => ∀ p q, e.2 = some p → f.2 = some q → q ≤ p

section

variable {nodes : List ShapeNode} {rest : List (Ast × Option Nat)}

/-- The first tree waits for an open node, and those behind it for this one or earlier ones. -/
theorem Waiting.uncons {e : Ast × Option Nat} (h : Waiting nodes (e :: rest)) :
    ∃ p, e.2 = some p ∧ Open nodes p ∧ Waiting nodes rest ∧
      ∀ f ∈ rest, ∀ q, f.2 = some q → q ≤ p := by
  obtain ⟨p, here, isOpen⟩ := h.attached e List.mem_cons_self
  obtain ⟨first, falling⟩ := List.pairwise_cons.mp h.falling
  exact ⟨p, here, isOpen, ⟨fun f hf => h.attached f (List.mem_cons_of_mem e hf), falling⟩,
    fun f hf q hq => first f hf p q here hq⟩

/-- More trees may wait in front, for an open node that was added later. -/
theorem Waiting.push {k : Nat} (h : Waiting nodes rest) (isOpen : Open nodes k)
    (later : ∀ e ∈ rest, ∀ q, e.2 = some q → q ≤ k) (trees : List Ast) :
    Waiting nodes (trees.map (·, some k) ++ rest) := by
  constructor
  case attached =>
    intro e he
    rcases List.mem_append.mp he with new | old
    · obtain ⟨t, -, rfl⟩ := List.mem_map.mp new
      exact ⟨k, rfl, isOpen⟩
    · exact h.attached e old
  case falling =>
    refine List.pairwise_append.mpr ⟨?_, h.falling, ?_⟩
    · rw [List.pairwise_map]
      refine List.pairwise_of_forall fun t u p q hp hq => ?_
      cases hp
      cases hq
      exact Nat.le_refl k
    · intro e he f hf p q hp hq
      obtain ⟨t, -, rfl⟩ := List.mem_map.mp he
      cases hp
      exact later f hf q hq

/-- Trees go on waiting when a node is added under one that came no earlier than theirs. -/
theorem Waiting.append {p : Nat} {n : ShapeNode} (h : Waiting nodes rest) (isOpen : Open nodes p)
    (earlier : ∀ e ∈ rest, ∀ q, e.2 = some q → q ≤ p)
    (deep : n.depth.toNat = depthAt nodes p + 1) : Waiting (append nodes (some p) n) rest := by
  refine ⟨fun e he => ?_, h.falling⟩
  obtain ⟨q, hq, other⟩ := h.attached e he
  exact ⟨q, hq, isOpen.append other (earlier e he q hq) deep⟩

end

variable {receivers : List String} {nodes : List ShapeNode} {t : Ast}

theorem depthUnder_eq {p : Nat} (isOpen : Open nodes p) (few : depthAt nodes p + 1 < UInt32.size) :
    (depthUnder nodes (some p)).toNat = depthAt nodes p + 1 := by
  obtain ⟨q, found⟩ : ∃ q, nodes[p]? = some q := ⟨_, List.getElem?_eq_getElem isOpen.1⟩
  rw [depthAt, found] at few ⊢
  rw [depthUnder, Option.bind_some, found, Option.map_some, Option.getD_some, UInt32.toNat_add]
  exact Nat.mod_eq_of_lt few

/-- No node is deeper than there are nodes before it. -/
theorem Ordered.depthAt_le (h : Ordered nodes) {i : Nat} (inside : i < nodes.length) :
    depthAt nodes i ≤ i := by
  induction i using Nat.strongRecOn with
  | ind i ih =>
      rcases Nat.eq_zero_or_pos i with rfl | positive
      · exact Nat.le_of_eq ((h.root 0 inside).mpr rfl)
      · obtain ⟨p, parent, -⟩ := h.parent i positive inside
        have := ih p parent.before (Nat.lt_trans parent.before inside)
        have := parent.above
        have := parent.before
        omega

/-- The copy keeps the order and the limit. -/
theorem copy_ordered {limit : Nat} (small : limit < UInt32.size) (pending : List (Ast × Option Nat))
    (h : Ordered nodes) (waiting : Waiting nodes pending) (few : nodes.length ≤ limit) :
    Ordered (copy (some limit) receivers pending nodes).nodes ∧
      (copy (some limit) receivers pending nodes).size ≤ limit := by
  fun_induction copy (some limit) receivers pending nodes with
  | case1 => exact ⟨h, few⟩
  | case2 nodes t parent rest role ih =>
      obtain ⟨-, -, -, behind, -⟩ := waiting.uncons
      exact ih h behind few
  | case3 nodes t parent rest role ih =>
      -- A spliced tree hands its parent on to its children.
      obtain ⟨p, rfl, isOpen, behind, earlier⟩ := waiting.uncons
      exact ih h (behind.push isOpen earlier t.children) few
  | case4 => exact ⟨h, few⟩
  | case5 nodes t parent rest kind role room ih =>
      obtain ⟨p, rfl, isOpen, behind, earlier⟩ := waiting.uncons
      have room : nodes.length < limit := by simpa using room
      have deep : (depthUnder nodes (some p)).toNat = depthAt nodes p + 1 := by
        refine depthUnder_eq isOpen ?_
        have := h.depthAt_le isOpen.1
        have := isOpen.1
        omega
      have after (e : Ast × Option Nat) (he : e ∈ rest) (q : Nat) (hq : e.2 = some q) :
          q ≤ nodes.length := Nat.le_trans (earlier e he q hq) (Nat.le_of_lt isOpen.1)
      refine ih (h.append isOpen rfl deep)
        ((behind.append isOpen earlier deep).push (.last _) after _) ?_
      rw [length_append]
      exact room

/-! ## What the limit leaves -/

/-- A node with only those children whose numbers are below `k`. -/
def cutChildren (k : Nat) (n : ShapeNode) : ShapeNode :=
  { n with children := n.children.filter (· < k) }

/-- The nodes with numbers below `k`, and of their children those. -/
def firstNodes (k : Nat) (nodes : List ShapeNode) : List ShapeNode :=
  (nodes.take k).map (cutChildren k)

/-- The children of all nodes are numbers of nodes. -/
def Known (nodes : List ShapeNode) : Prop :=
  ∀ n ∈ nodes, ∀ c ∈ n.children, c < nodes.length

section

variable {k : Nat} {n : ShapeNode}

theorem cutChildren_of_known (known : ∀ c ∈ n.children, c < k) : cutChildren k n = n := by
  have all : n.children.filter (· < k) = n.children :=
    List.filter_eq_self.mpr fun c child => decide_eq_true (known c child)
  rw [cutChildren, all]

theorem cutChildren_withChild {number : Nat} (above : k ≤ number) :
    cutChildren k (withChild n number) = cutChildren k n := by
  simp [cutChildren, withChild, List.filter_append, above]

theorem firstNodes_of_known (known : Known nodes) (few : nodes.length ≤ k) :
    firstNodes k nodes = nodes := by
  rw [firstNodes, List.take_of_length_le few]
  calc nodes.map (cutChildren k)
    _ = nodes.map id := List.map_congr_left fun n here =>
        cutChildren_of_known fun c child => Nat.lt_of_lt_of_le (known n here c child) few
    _ = nodes := List.map_id nodes

/-- An added node leaves the first ones as they are. -/
theorem firstNodes_append (parent : Option Nat) (before : k ≤ nodes.length) :
    firstNodes k (append nodes parent n) = firstNodes k nodes := by
  cases parent with
  | none => rw [firstNodes, append, List.take_append_of_le_length before, firstNodes]
  | some p =>
      refine List.ext_getElem? fun i => ?_
      simp only [firstNodes, List.getElem?_map, List.getElem?_take]
      split
      · rename_i inside
        rw [getElem?_append_before (Nat.lt_of_lt_of_le inside before), Option.map_map]
        congr 1
        funext m
        rw [Function.comp_apply]
        split
        · exact cutChildren_withChild before
        · rfl
      · rfl

theorem Known.append (known : Known nodes) (parent : Option Nat) (leaf : n.children = []) :
    Known (append nodes parent n) := by
  have last (c : Nat) (child : c ∈ n.children) : False := by
    rw [leaf] at child
    cases child
  intro m here c child
  rw [length_append]
  cases parent with
  | none =>
      rcases List.mem_append.mp here with old | new
      · exact Nat.lt_succ_of_lt (known m old c child)
      · rw [List.mem_singleton.mp new] at child
        exact (last c child).elim
  | some p =>
      obtain ⟨i, found⟩ := List.mem_iff_getElem?.mp here
      rcases append_cases found with ⟨-, old, there, rfl⟩ | ⟨-, rfl⟩
      · rcases mem_withChild.mp child with before | ⟨-, rfl⟩
        · exact Nat.lt_succ_of_lt (known old (List.mem_of_getElem? there) c before)
        · exact Nat.lt_succ_self _
      · exact (last c child).elim

end

/-- Copying on leaves the first nodes as they are. -/
theorem copy_firstNodes (limit : Option Nat) (receivers : List String)
    (pending : List (Ast × Option Nat)) {k : Nat} (before : k ≤ nodes.length) :
    nodes.length ≤ (copy limit receivers pending nodes).size ∧
      firstNodes k (copy limit receivers pending nodes).nodes = firstNodes k nodes := by
  fun_induction copy limit receivers pending nodes with
  | case1 nodes => exact ⟨Nat.le_refl _, rfl⟩
  | case2 nodes t parent rest role ih => exact ih before
  | case3 nodes t parent rest role ih => exact ih before
  | case4 nodes => exact ⟨Nat.le_refl _, rfl⟩
  | case5 nodes t parent rest kind role room ih =>
      rw [length_append] at ih
      obtain ⟨more, same⟩ := ih (Nat.le_succ_of_le before)
      exact ⟨Nat.le_of_succ_le more, same.trans (firstNodes_append parent before)⟩

/-- A limited copy has the first nodes of an unlimited one, and is marked as truncated if these are
    not all. -/
theorem copy_limited {limit : Nat} (receivers : List String) (pending : List (Ast × Option Nat))
    (known : Known nodes) (few : nodes.length ≤ limit) :
    (copy (some limit) receivers pending nodes).nodes =
        firstNodes limit (copy none receivers pending nodes).nodes ∧
      ((copy (some limit) receivers pending nodes).truncated = true ↔
        limit < (copy none receivers pending nodes).size) := by
  fun_induction copy (some limit) receivers pending nodes with
  | case1 nodes =>
      rw [copy]
      exact ⟨(firstNodes_of_known known few).symm, iff_of_false (nofun) (Nat.not_lt_of_le few)⟩
  | case2 nodes t parent rest role ih =>
      rw [copy, role]
      exact ih known few
  | case3 nodes t parent rest role ih =>
      rw [copy, role]
      exact ih known few
  | case4 nodes t parent rest kind role full =>
      have full : limit ≤ nodes.length := by simpa using full
      have step : copy none receivers ((t, parent) :: rest) nodes =
          copy none receivers ((below kind t).map (·, some nodes.length) ++ rest)
            (append nodes parent (nodeOf receivers kind (depthUnder nodes parent) t)) := by
        rw [copy, role]
        rfl
      have more : limit < (append nodes parent
          (nodeOf receivers kind (depthUnder nodes parent) t)).length := by
        rw [length_append]
        exact Nat.lt_succ_of_le full
      obtain ⟨length, same⟩ := copy_firstNodes none receivers
        ((below kind t).map (·, some nodes.length) ++ rest) (Nat.le_of_lt more)
      rw [step, same, firstNodes_append parent full, firstNodes_of_known known few]
      exact ⟨rfl, iff_of_true rfl (Nat.lt_of_lt_of_le more length)⟩
  | case5 nodes t parent rest kind role room ih =>
      have room : nodes.length < limit := by simpa using room
      rw [copy, role]
      exact ih (known.append parent rfl) (length_append parent ▸ room)

/-! ## The shape of a tree -/

/-- The shape that a tree has if no node is left out. -/
def whole (t : Ast) (selfNames : List String) : Shape :=
  copy none (receiverNames t selfNames) [(t, none)] []

theorem roleOf_root (receivers : List String) (n : Node) :
    roleOf receivers true n = .drop ∨ ∃ kind, roleOf receivers true n = .keep kind := by
  unfold roleOf
  split
  · exact .inl rfl
  · exact .inr ⟨_, rfl⟩
  · exact .inr ⟨_, rfl⟩
  · split
    · split
      · exact .inr ⟨_, rfl⟩
      · exact .inl rfl
    · exact .inl rfl
  · exact .inr ⟨_, rfl⟩

theorem ordered_nil : Ordered [] := by
  have nothing (p : Nat) (n : ShapeNode) : ([] : List ShapeNode)[p]? ≠ some n := by simp
  constructor
  case root => exact fun i inside => absurd inside (Nat.not_lt_zero i)
  case parent => exact fun i _ inside => absurd inside (Nat.not_lt_zero i)
  case children => exact fun p n found => absurd found (nothing p n)
  case increasing => exact fun p n found => absurd found (nothing p n)

theorem ordered_single {n : ShapeNode} (top : n.depth = 0) (leaf : n.children = []) :
    Ordered [n] := by
  have only {i : Nat} {m : ShapeNode} (found : [n][i]? = some m) : i = 0 ∧ m = n := by
    cases i with
    | zero => exact ⟨rfl, (Option.some.inj found).symm⟩
    | succ i => cases found
  constructor
  case root =>
    intro i inside
    obtain rfl : i = 0 := Nat.lt_one_iff.mp inside
    simp [depthAt, top]
  case parent =>
    intro i positive inside
    exact absurd positive (Nat.not_lt_of_le (Nat.le_of_lt_succ inside))
  case children =>
    intro p m found i
    obtain ⟨rfl, rfl⟩ := only found
    rw [leaf]
    refine iff_of_false List.not_mem_nil ?_
    rintro ⟨inside, parent⟩
    exact absurd parent.before (Nat.not_lt_of_le (Nat.le_of_lt_succ inside))
  case increasing =>
    intro p m found
    rw [(only found).2, leaf]
    exact List.Pairwise.nil

/-- The root is dropped or is the first node, under which everything else comes. -/
theorem ofAst_ordered (t : Ast) (selfNames : List String) :
    Ordered (ofAst t selfNames).nodes ∧ (ofAst t selfNames).size ≤ maxNodes := by
  rw [ofAst, copy]
  rcases roleOf_root (receiverNames t selfNames) t.data with role | ⟨kind, role⟩
  · rw [Option.isNone_none, role, copy]
    exact ⟨ordered_nil, Nat.zero_le _⟩
  · rw [Option.isNone_none, role]
    have start := ordered_single (n := nodeOf (receiverNames t selfNames) kind 0 t) rfl rfl
    have isOpen : Open [nodeOf (receiverNames t selfNames) kind 0 t] 0 := @Open.last [] _ none
    have nobody (e : Ast × Option Nat) : e ∉ [] := List.not_mem_nil
    have waiting : Waiting [nodeOf (receiverNames t selfNames) kind 0 t] [] :=
      ⟨fun e he => absurd he (nobody e), List.Pairwise.nil⟩
    have later := waiting.push isOpen (fun e he => absurd he (nobody e)) (below kind t)
    refine copy_ordered (by decide) _ start later ?_
    rw [length_append]
    decide

/-- The shape of every tree, whatever the receivers are called, is in preorder and within the limit.
    It is truncated if the whole shape of the tree has more nodes, and it has the first ones of
    these. Its skeleton decides of its child lists. -/
theorem ofAst_inPreorder (t : Ast) (selfNames : List String) :
    (ofAst t selfNames).InPreorder ∧
    (ofAst t selfNames).size ≤ maxNodes ∧
    ((ofAst t selfNames).truncated = true ↔ maxNodes < (whole t selfNames).size) ∧
    (ofAst t selfNames).nodes = firstNodes maxNodes (whole t selfNames).nodes ∧
    ∀ (u : Ast) (otherNames : List String),
      (ofAst u otherNames).skeleton = (ofAst t selfNames).skeleton →
      (ofAst u otherNames).nodes.map (·.children) = (ofAst t selfNames).nodes.map (·.children) := by
  obtain ⟨ordered, few⟩ := ofAst_ordered t selfNames
  have nothing : Known [] := fun _ none => absurd none List.not_mem_nil
  obtain ⟨first, truncated⟩ :=
    copy_limited (receiverNames t selfNames) [(t, none)] nothing (Nat.zero_le maxNodes)
  refine ⟨ordered.inPreorder, few, truncated, first, fun u otherNames same => ?_⟩
  have depths (s : Shape) : s.nodes.map (·.depth) = s.skeleton.map (·.2) := by
    rw [skeleton, List.map_map]
    rfl
  refine (ofAst_ordered u otherNames).1.children_eq ordered ?_
  rw [depths, depths, same]

end CodeSearch.Shape
