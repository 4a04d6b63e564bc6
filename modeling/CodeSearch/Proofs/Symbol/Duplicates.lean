import CodeSearch.Proofs.Symbol.Pairing
import CodeSearch.Proofs.Symbol.Parts

/-! # Pairs among duplicates

Duplicates are symbols of one identity. A comparison pairs as many of them as there are on the side
that has fewer. Two that overlap are left apart only if one of them is paired with a symbol with
which it overlaps as much or more, and what overlaps with no partner is paired in list order.
-/

namespace CodeSearch.SymbolDiff

/-! ## Counting what is left -/

/-- Of distinct numbers those are left that no pair has on a side. -/
theorem left_length {all : List Nat} {chosen : List (Nat × Nat)} {side : Nat × Nat → Nat}
    (distinct : all.Nodup) (once : (chosen.map side).Nodup) (known : ∀ p ∈ chosen, side p ∈ all) :
    (all.filter fun n => !chosen.any (side · == n)).length + chosen.length = all.length := by
  have taken : (all.filter fun n => chosen.any (side · == n)).Perm (chosen.map side) := by
    refine (List.perm_ext_iff_of_nodup (distinct.filter _) once).mpr fun n => ?_
    simp only [List.mem_filter, List.any_eq_true, beq_iff_eq, List.mem_map]
    constructor
    · exact fun h => h.2
    · rintro ⟨p, hp, rfl⟩
      exact ⟨known p hp, p, hp, rfl⟩
  have split := List.length_eq_length_filter_add (l := all) fun n => chosen.any (side · == n)
  rw [taken.length_eq, List.length_map] at split
  omega

section

variable {old new : List (Symbol × Nat)}

theorem chosen_known {p : Nat × Nat} (h : p ∈ choose (queue old new)) :
    p.1 ∈ new.map (·.2) ∧ p.2 ∈ old.map (·.2) :=
  pairs_known (pairs_eq old new ▸ List.mem_append_left _ h)

/-- As many symbols are paired as there are on the side that has fewer. -/
theorem pairs_length (hn : (new.map (·.2)).Nodup) (ho : (old.map (·.2)).Nodup) :
    (pairs old new).length = min old.length new.length := by
  have chosen := (choose_sound (queue old new)).1
  have leftNew := left_length hn chosen.new fun p hp => (chosen_known hp).1
  have leftOld := left_length ho chosen.old fun p hp => (chosen_known hp).2
  rw [List.length_map] at leftNew leftOld
  rw [pairs_eq, List.length_append, List.length_zip]
  omega

/-! ## Stability -/

/-- Every candidate meets a chosen one with at least its overlap. -/
theorem exists_chosen {c : Candidate} (h : c ∈ queue old new) : ∃ d ∈ queue old new,
    d.pair ∈ choose (queue old new) ∧ c.overlap ≤ d.overlap ∧ Meet d.pair c.pair := by
  by_cases own : c.pair ∈ choose (queue old new)
  · exact ⟨c, h, own, Nat.le_refl _, .inl rfl⟩
  · have leads : Leads (· ∈ choose (queue old new)) (queue old new) :=
      leads_of_choose fun p hp => hp
    obtain ⟨d, hd, chosen, earlier, meet⟩ := (leads_iff (queue_sorted old new)).mp leads c h own
    refine ⟨d, hd, chosen, ?_, meet⟩
    have order := Candidate.le_iff.mp earlier
    omega

end

/-! ## Overlaps of pairs -/

section

variable {old new : List Symbol} {i : Identity}

/-- Number of lines in which the symbols of a pair overlap. -/
def overlapOf (old new : List Symbol) (p : Nat × Nat) : Nat :=
  match new[p.1]?, old[p.2]? with
  | some s, some t => s.span.lineOverlap t.span
  | _, _ => 0

theorem overlapOf_eq {n o : Nat} {s t : Symbol} (hs : new[n]? = some s) (ht : old[o]? = some t) :
    overlapOf old new (n, o) = s.span.lineOverlap t.span := by
  simp only [overlapOf, hs, ht]

/-- The symbols of one identity in the order in which candidates are taken. -/
abbrev queueOf (old new : List Symbol) (i : Identity) : List Candidate :=
  queue (ofIdentity old i) (ofIdentity new i)

theorem mem_queueOf {c : Candidate} (h : c ∈ queueOf old new i) :
    overlapOf old new c.pair = c.overlap ∧ 0 < c.overlap := by
  obtain ⟨s, t, hs, ht, overlap, positive⟩ := mem_candidates.mp (mem_queue.mp h)
  exact ⟨(overlapOf_eq (mem_numbered.mp hs).1 (mem_numbered.mp ht).1).trans overlap.symm, positive⟩

theorem chosen_overlap {p : Nat × Nat} (h : p ∈ choose (queueOf old new i)) :
    0 < overlapOf old new p := by
  obtain ⟨c, hc, rfl⟩ := (choose_sound _).2 p h
  obtain ⟨overlap, positive⟩ := mem_queueOf hc
  exact Nat.lt_of_lt_of_eq positive overlap.symm

/-- The numbers of one identity that no chosen pair has on a side. -/
def leftOf (old new : List Symbol) (i : Identity) (side : Nat × Nat → Nat)
    (symbols : List Symbol) : List Nat :=
  ((ofIdentity symbols i).map (·.2)).filter fun n =>
    !(choose (queueOf old new i)).any (side · == n)

theorem leftOf_free {side : Nat × Nat → Nat} {symbols : List Symbol} {n : Nat}
    (h : n ∈ leftOf old new i side symbols) : ∀ p ∈ choose (queueOf old new i), side p ≠ n := by
  have free := List.of_mem_filter h
  rw [Bool.not_eq_true', List.any_eq_false] at free
  exact fun p hp same => free p hp (beq_iff_eq.mpr same)

/-- What is paired in list order does not overlap, or else it would have been chosen. -/
theorem left_overlap {p : Nat × Nat}
    (h : p ∈ (leftOf old new i Prod.fst new).zip (leftOf old new i Prod.snd old)) :
    overlapOf old new p = 0 := by
  obtain ⟨n, o⟩ := p
  obtain ⟨leftNew, leftOld⟩ := List.of_mem_zip h
  obtain ⟨⟨s, n⟩, hs, rfl⟩ := List.mem_map.mp (List.mem_of_mem_filter leftNew)
  obtain ⟨⟨t, o⟩, ht, rfl⟩ := List.mem_map.mp (List.mem_of_mem_filter leftOld)
  by_contra overlapping
  rw [overlapOf_eq (mem_numbered.mp hs).1 (mem_numbered.mp ht).1] at overlapping
  have listed : (⟨s.span.lineOverlap t.span, n, o⟩ : Candidate) ∈ queueOf old new i :=
    mem_queue.mpr (mem_candidates.mpr ⟨s, t, hs, ht, rfl, Nat.pos_of_ne_zero overlapping⟩)
  obtain ⟨d, -, chosen, -, here | there⟩ := exists_chosen listed
  · exact leftOf_free leftNew d.pair chosen here
  · exact leftOf_free leftOld d.pair chosen there

/-! ## The pairs of one identity -/

/-- The pairs whose symbols have an identity. -/
def pairsOf (new : List Symbol) (matched : List (Nat × Nat)) (i : Identity) : List (Nat × Nat) :=
  matched.filter fun p => new[p.1]?.any (identity · == i)

theorem flatMap_only {α β : Type} [DecidableEq α] {l : List α} (distinct : l.Nodup) (a : α)
    (f : α → List β) : (l.flatMap fun b => if b = a then f b else []) = if a ∈ l then f a else [] := by
  induction l with
  | nil => rfl
  | cons b rest ih =>
      obtain ⟨absent, distinct⟩ := List.nodup_cons.mp distinct
      rw [List.flatMap_cons, ih distinct]
      by_cases here : b = a
      · subst here
        simp [absent]
      · simp [here, Ne.symm here]

theorem pairsOf_matching (old new : List Symbol) (i : Identity) :
    pairsOf new (matching old new) i = pairs (ofIdentity old i) (ofIdentity new i) := by
  have each (j : Identity) : (pairs (ofIdentity old j) (ofIdentity new j)).filter
      (fun p => new[p.1]?.any (identity · == i)) =
        if j = i then pairs (ofIdentity old j) (ofIdentity new j) else [] := by
    have own {p : Nat × Nat} (hp : p ∈ pairs (ofIdentity old j) (ofIdentity new j)) :
        new[p.1]?.any (identity · == i) = decide (j = i) := by
      obtain ⟨s, hs, same⟩ := mem_ofIdentity (pairs_known hp).1
      rw [hs, Option.any_some, same, beq_eq_decide]
    split
    · rename_i here
      exact List.filter_eq_self.mpr fun p hp => (own hp).trans (decide_eq_true here)
    · rename_i elsewhere
      refine List.filter_eq_nil_iff.mpr fun p hp => ?_
      rw [own hp, decide_eq_true_iff]
      exact elsewhere
  rw [pairsOf, matching_eq, List.filter_flatMap]
  simp only [each]
  rw [flatMap_only (nodup_eraseDups _)]
  split
  · rfl
  · rename_i absent
    -- no new symbol has this identity
    have none : ofIdentity new i = [] := by
      refine List.eq_nil_iff_forall_not_mem.mpr fun ⟨s, n⟩ hs => absent ?_
      obtain ⟨place, same⟩ := mem_numbered.mp hs
      exact List.mem_eraseDups.mpr (List.mem_map.mpr ⟨s, List.mem_of_getElem? place, same⟩)
    rw [none]
    exact (List.eq_nil_iff_forall_not_mem.mpr fun p hp =>
      absurd (pairs_known hp).1 List.not_mem_nil).symm

/-- Number of symbols of one identity. -/
def countOf (symbols : List Symbol) (i : Identity) : Nat :=
  symbols.countP (identity · == i)

theorem ofIdentity_length (symbols : List Symbol) (i : Identity) :
    (ofIdentity symbols i).length = countOf symbols i := by
  rw [countOf, List.countP_eq_length_filter, ← numbered_symbols, List.length_map]

theorem pairsOf_length (old new : List Symbol) (i : Identity) :
    (pairsOf new (matching old new) i).length = min (countOf old i) (countOf new i) := by
  rw [pairsOf_matching, pairs_length (numbers_nodup new i) (numbers_nodup old i),
    ofIdentity_length, ofIdentity_length]

/-- The numbers of one identity whose symbols have no partner with which they overlap. -/
def loose (old new : List Symbol) (matched : List (Nat × Nat)) (i : Identity)
    (side : Nat × Nat → Nat) (symbols : List Symbol) : List Nat :=
  ((ofIdentity symbols i).map (·.2)).filter fun n =>
    !(pairsOf new matched i).any fun p => side p == n && 0 < overlapOf old new p

theorem mem_pairsOf {p : Nat × Nat} : p ∈ pairsOf new (matching old new) i ↔
    p ∈ choose (queueOf old new i) ∨
      p ∈ (leftOf old new i Prod.fst new).zip (leftOf old new i Prod.snd old) := by
  rw [pairsOf_matching, pairs_eq, List.mem_append]
  rfl

theorem loose_matching (old new : List Symbol) (i : Identity) (side : Nat × Nat → Nat)
    (symbols : List Symbol) :
    loose old new (matching old new) i side symbols = leftOf old new i side symbols := by
  refine List.filter_congr fun n _ => congrArg _ ?_
  rw [Bool.eq_iff_iff, List.any_eq_true, List.any_eq_true]
  constructor
  · rintro ⟨p, hp, told⟩
    rw [Bool.and_eq_true, decide_eq_true_iff] at told
    rcases mem_pairsOf.mp hp with chosen | left
    · exact ⟨p, chosen, told.1⟩
    · exact absurd (left_overlap left) (Nat.ne_of_gt told.2)
  · rintro ⟨p, chosen, here⟩
    refine ⟨p, mem_pairsOf.mpr (.inl chosen), ?_⟩
    rw [here, Bool.true_and, decide_eq_true_iff]
    exact chosen_overlap chosen

theorem pairsOf_loose (old new : List Symbol) (i : Identity) :
    (pairsOf new (matching old new) i).filter (overlapOf old new · == 0) =
      (loose old new (matching old new) i Prod.fst new).zip
        (loose old new (matching old new) i Prod.snd old) := by
  have overlapping : (choose (queueOf old new i)).filter (overlapOf old new · == 0) = [] := by
    refine List.filter_eq_nil_iff.mpr fun p chosen none => ?_
    exact absurd (beq_iff_eq.mp none) (Nat.ne_of_gt (chosen_overlap chosen))
  have apart : ((leftOf old new i Prod.fst new).zip (leftOf old new i Prod.snd old)).filter
      (overlapOf old new · == 0) =
        (leftOf old new i Prod.fst new).zip (leftOf old new i Prod.snd old) :=
    List.filter_eq_self.mpr fun p left => beq_iff_eq.mpr (left_overlap left)
  rw [loose_matching, loose_matching, pairsOf_matching, pairs_eq, List.filter_append]
  exact (congrArg (· ++ _) overlapping).trans apart

/-! ## The whole matching -/

/-- One of two overlapping symbols has a partner with which it overlaps as much or more. -/
theorem matching_stable {n o : Nat} {s t : Symbol} (hs : new[n]? = some s) (ht : old[o]? = some t)
    (same : identity s = identity t) (positive : 0 < s.span.lineOverlap t.span) :
    (∃ k, (n, k) ∈ matching old new ∧ s.span.lineOverlap t.span ≤ overlapOf old new (n, k)) ∨
      ∃ m, (m, o) ∈ matching old new ∧ s.span.lineOverlap t.span ≤ overlapOf old new (m, o) := by
  have listed : (⟨s.span.lineOverlap t.span, n, o⟩ : Candidate) ∈ queueOf old new (identity s) :=
    mem_queue.mpr (mem_candidates.mpr
      ⟨s, t, mem_numbered.mpr ⟨hs, rfl⟩, mem_numbered.mpr ⟨ht, same.symm⟩, rfl, positive⟩)
  obtain ⟨d, hd, chosen, more, meet⟩ := exists_chosen listed
  have inside : d.pair ∈ matching old new :=
    List.mem_of_mem_filter (mem_pairsOf.mpr (.inl chosen))
  rw [← (mem_queueOf hd).1] at more
  rcases meet with here | there
  · obtain rfl : d.new = n := here
    exact .inl ⟨d.old, inside, more⟩
  · obtain rfl : d.old = o := there
    exact .inr ⟨d.new, inside, more⟩

/-- A pairing that takes as many duplicates as it can, and those first that overlap the most. -/
structure StablyPaired (old new : List Symbol) (matched : List (Nat × Nat)) : Prop where
  oneToOne : OneToOne matched
  alike : ∀ p ∈ matched,
    ∃ s t, new[p.1]? = some s ∧ old[p.2]? = some t ∧ identity s = identity t
  maximal : ∀ i, (pairsOf new matched i).length = min (countOf old i) (countOf new i)
  /-- No two symbols would both rather be paired with each other. -/
  stable : ∀ n o s t, new[n]? = some s → old[o]? = some t → identity s = identity t →
    0 < s.span.lineOverlap t.span →
      (∃ k, (n, k) ∈ matched ∧ s.span.lineOverlap t.span ≤ overlapOf old new (n, k)) ∨
        ∃ m, (m, o) ∈ matched ∧ s.span.lineOverlap t.span ≤ overlapOf old new (m, o)
  /-- The first symbols without an overlapping partner are paired, then the second ones, and so on. -/
  inOrder : ∀ i, (pairsOf new matched i).filter (overlapOf old new · == 0) =
    (loose old new matched i Prod.fst new).zip (loose old new matched i Prod.snd old)

theorem matching_stablyPaired (old new : List Symbol) :
    StablyPaired old new (matching old new) where
  oneToOne := matching_oneToOne old new
  alike _ := matching_known
  maximal := pairsOf_length old new
  stable _ _ _ _ := matching_stable
  inOrder := pairsOf_loose old new

/-! ## What a comparison tells of duplicates -/

theorem mem_numbers {symbols : List Symbol} {n : Nat} {s : Symbol} (place : symbols[n]? = some s) :
    n ∈ (ofIdentity symbols i).map (·.2) ↔ identity s = i := by
  constructor
  · intro listed
    obtain ⟨t, ht, same⟩ := mem_ofIdentity listed
    rw [place] at ht
    exact Option.some.inj ht ▸ same
  · intro same
    exact List.mem_map.mpr ⟨(s, n), mem_numbered.mpr ⟨place, same⟩, rfl⟩

/-- The pairs of one identity are those that have a number of that identity on either side. -/
theorem pairsOf_sides {p : Nat × Nat} (h : p ∈ matching old new) :
    (p ∈ pairsOf new (matching old new) i ↔ p.1 ∈ (ofIdentity new i).map (·.2)) ∧
      (p ∈ pairsOf new (matching old new) i ↔ p.2 ∈ (ofIdentity old i).map (·.2)) := by
  obtain ⟨s, t, hs, ht, same⟩ := matching_known h
  have own : p ∈ pairsOf new (matching old new) i ↔ identity s = i := by
    rw [pairsOf, List.mem_filter, hs, Option.any_some, beq_iff_eq]
    exact and_iff_right h
  exact ⟨own.trans (mem_numbers hs).symm, own.trans (same ▸ (mem_numbers ht).symm)⟩

/-- A symbol of one identity is in a pair of that identity or in none. -/
theorem unmatched_count {symbols : List Symbol} {side : Nat × Nat → Nat}
    (once : ((matching old new).map side).Nodup)
    (own : ∀ p ∈ matching old new,
      p ∈ pairsOf new (matching old new) i ↔ side p ∈ (ofIdentity symbols i).map (·.2)) :
    (symbols.zipIdx.filter fun s => !(matching old new).any (side · == s.2)).countP
        (identity ·.1 == i) + (pairsOf new (matching old new) i).length = countOf symbols i := by
  have onceHere : ((pairsOf new (matching old new) i).map side).Nodup :=
    once.sublist (List.filter_sublist.map side)
  have left := left_length (numbers_nodup symbols i) onceHere
    fun p hp => (own p (List.mem_of_mem_filter hp)).mp hp
  have unmatched : ((ofIdentity symbols i).map (·.2)).filter
      (fun n => !(pairsOf new (matching old new) i).any (side · == n)) =
        ((ofIdentity symbols i).map (·.2)).filter
          fun n => !(matching old new).any (side · == n) := by
    refine List.filter_congr fun n inside => congrArg _ ?_
    rw [Bool.eq_iff_iff, List.any_eq_true, List.any_eq_true]
    constructor
    · rintro ⟨p, hp, here⟩
      exact ⟨p, List.mem_of_mem_filter hp, here⟩
    · rintro ⟨p, hp, here⟩
      exact ⟨p, (own p hp).mpr (beq_iff_eq.mp here ▸ inside), here⟩
  rw [unmatched, List.length_map, ofIdentity_length] at left
  rw [← left, List.countP_filter, ofIdentity, ← List.countP_eq_length_filter, List.countP_map,
    List.countP_filter]
  simp only [Function.comp_apply, Bool.and_comm]

theorem added_eq (old new : List Symbol) : (between old new).added =
    (new.zipIdx.filter fun s => !(matching old new).any (·.1 == s.2)).map
      fun s => (names old new).applyTo s.1 := by
  change (renamed old new).filterMap added? = _
  rw [renamed, List.filterMap_map, ← List.filterMap_eq_map, List.filterMap_filter]
  refine List.filterMap_congr fun s _ => ?_
  cases counterpart : previous? old (matching old new) s.2 with
  | none => simp [added?, counterpart, previous?_none.mp counterpart]
  | some t =>
      have matched : (matching old new).any (·.1 == s.2) = true := by
        rw [← Bool.not_eq_false, ← previous?_none, counterpart]
        exact Option.some_ne_none t
      simp [added?, counterpart, matched]

/-- What a comparison tells of a pairing: of every identity how many symbols are matched, added and
    removed, and of a matched symbol whose id it has. -/
structure Tells (old new : List Symbol) (pairing : List (Nat × Nat)) (d : SymbolDiff) : Prop where
  matched : ∀ i, countOf d.matchedSymbols i = min (countOf old i) (countOf new i)
  added : ∀ i, countOf d.added i = countOf new i - countOf old i
  removed : ∀ i, countOf d.removed i = countOf old i - countOf new i
  inherited : (new.map (·.id)).Nodup → ∀ (n o : Nat) (s t : Symbol), (n, o) ∈ pairing →
    new[n]? = some s → old[o]? = some t → ∃ f, s.rename f ∈ d.matchedSymbols ∧ f s.id = t.id

theorem between_counts (old new : List Symbol) (i : Identity) :
    countOf (between old new).matchedSymbols i = min (countOf old i) (countOf new i) ∧
      countOf (between old new).added i = countOf new i - countOf old i ∧
      countOf (between old new).removed i = countOf old i - countOf new i := by
  have pairs := pairsOf_length old new i
  have added : countOf (between old new).added i + (pairsOf new (matching old new) i).length =
      countOf new i := by
    have count := unmatched_count (matching_oneToOne old new).new fun p hp =>
      (pairsOf_sides (i := i) hp).1
    rw [added_eq, countOf, List.countP_map]
    exact count
  have removed : countOf (between old new).removed i + (pairsOf new (matching old new) i).length =
      countOf old i := by
    have count := unmatched_count (matching_oneToOne old new).old fun p hp =>
      (pairsOf_sides (i := i) hp).2
    change ((old.zipIdx.filter _).map Prod.fst).countP _ + _ = _
    rw [List.countP_map]
    exact count
  have all : countOf (between old new).added i + countOf (between old new).matchedSymbols i =
      countOf new i := by
    have parts := ((parts_current (between old new)).symm.trans (current_perm old new)).countP_eq
      (identity · == i)
    rw [List.countP_append, List.countP_map] at parts
    exact parts
  omega

theorem between_tells (old new : List Symbol) :
    Tells old new (matching old new) (between old new) where
  matched i := (between_counts old new i).1
  added i := (between_counts old new i).2.1
  removed i := (between_counts old new i).2.2
  inherited distinct n _ s t pair hs ht := by
    have counterpart := previous?_of_mem pair ht
    exact ⟨(names old new).apply, mem_matched.mpr ⟨n, s, t, hs, counterpart, rfl⟩,
      names_of_previous distinct hs counterpart⟩

end

/-- Comparing two versions pairs duplicates in a maximal and stable way, and tells what such a
    pairing matches and leaves. -/
theorem between_stablyPaired (old new : List Symbol) :
    StablyPaired old new (matching old new) ∧
      Tells old new (matching old new) (between old new) :=
  ⟨matching_stablyPaired old new, between_tells old new⟩

end CodeSearch.SymbolDiff
