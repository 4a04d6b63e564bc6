import CodeSearch.Proofs.Symbol.Matching
import Mathlib.Data.List.Induction
import Mathlib.Data.List.Pairwise

/-! # Which pairs a choice by overlap takes

The candidates are taken in turn, so a pair is passed over only for one that came before it and
has a symbol in common with it. When the old symbols are the new ones in some order, each is paired
with itself exactly as long as symbols whose overlaps do not differ stand in the same order in both.
-/

namespace CodeSearch

namespace Syntax.Span

theorem lineOverlap_comm (a b : Span) : a.lineOverlap b = b.lineOverlap a := by
  rw [lineOverlap, lineOverlap, Nat.max_comm, Nat.min_comm]

theorem lineOverlap_le_self (a b : Span) : a.lineOverlap b ≤ a.lineOverlap a := by
  simp only [lineOverlap, Nat.max_self, Nat.min_self]
  split
  · split
    · omega
    · omega
  · exact Nat.zero_le _

/-- Spans that overlap with each other as much as each does with itself. -/
def Tied (a b : Span) : Prop :=
  a.lineOverlap a = a.lineOverlap b ∧ b.lineOverlap b = a.lineOverlap b

instance (a b : Span) : Decidable (a.Tied b) :=
  inferInstanceAs (Decidable (_ ∧ _))

end Syntax.Span

namespace SymbolDiff

/-! ## Order of the candidates -/

namespace Candidate

variable {a b c : Candidate}

theorem le_iff : a.le b = true ↔ b.overlap < a.overlap ∨
    a.overlap = b.overlap ∧ (a.new < b.new ∨ a.new = b.new ∧ a.old ≤ b.old) := by
  unfold le
  split
  · rw [decide_eq_true_iff]
    omega
  · split
    · rw [decide_eq_true_iff]
      omega
    · rw [decide_eq_true_iff]
      omega

theorem le_total (a b : Candidate) : (a.le b || b.le a) = true := by
  rw [Bool.or_eq_true, le_iff, le_iff]
  omega

theorem le_trans (a b c : Candidate) (first : a.le b = true) (second : b.le c = true) :
    a.le c = true := by
  rw [le_iff] at *
  omega

theorem le_antisymm (first : a.le b = true) (second : b.le a = true) : a = b := by
  rw [le_iff] at first second
  obtain ⟨overlap, new, old⟩ := a
  obtain ⟨overlap', new', old'⟩ := b
  simp only [mk.injEq] at *
  omega

/-- The numbers of the two symbols. -/
def pair (c : Candidate) : Nat × Nat :=
  (c.new, c.old)

end Candidate

/-! ## Choosing in turn -/

/-- Pairs with a symbol in common. -/
def Meet (p q : Nat × Nat) : Prop :=
  p.1 = q.1 ∨ p.2 = q.2

/-- Before every candidate that is not wanted comes a wanted one with a symbol of it. -/
def Leads (wanted : Nat × Nat → Prop) (candidates : List Candidate) : Prop :=
  ∀ before c, before ++ [c] <+: candidates → ¬ wanted c.pair →
    ∃ d ∈ before, wanted d.pair ∧ Meet d.pair c.pair

section

variable {wanted : Nat × Nat → Prop} {candidates : List Candidate}

theorem choose_append (candidates : List Candidate) (c : Candidate) :
    choose (candidates ++ [c]) =
      if (choose candidates).any fun p => p.1 == c.new || p.2 == c.old then choose candidates
      else choose candidates ++ [c.pair] := by
  rw [choose, List.foldl_append]
  rfl

theorem any_meet {pairs : List (Nat × Nat)} {c : Candidate} :
    (pairs.any fun p => p.1 == c.new || p.2 == c.old) = true ↔ ∃ p ∈ pairs, Meet p c.pair := by
  simp [Meet, Candidate.pair]

theorem choose_prefix {first all : List Candidate} (h : first <+: all) :
    choose first ⊆ choose all := by
  obtain ⟨rest, rfl⟩ := h
  induction rest generalizing first with
  | nil => simp
  | cons c rest ih =>
      have step : choose first ⊆ choose (first ++ [c]) := by
        rw [choose_append]
        split
        · exact List.Subset.refl _
        · exact List.subset_append_left _ _
      have onward : choose (first ++ [c]) ⊆ choose (first ++ [c] ++ rest) := ih
      rw [List.append_assoc] at onward
      exact List.Subset.trans step onward

/-- What is wanted is chosen when it leads. -/
theorem mem_choose_of_leads (apart : ∀ p q, wanted p → wanted q → Meet p q → p = q)
    (leads : Leads wanted candidates) {p : Nat × Nat} :
    p ∈ choose candidates ↔ wanted p ∧ p ∈ candidates.map Candidate.pair := by
  -- along the candidates: exactly the wanted ones among those that were seen are chosen
  induction candidates using List.reverseRecOn generalizing p with
  | nil => simp [choose]
  | append_singleton seen c ih =>
      have chosen : ∀ {p}, p ∈ choose seen ↔ wanted p ∧ p ∈ seen.map Candidate.pair :=
        ih fun before d inside => leads before d (inside.trans (List.prefix_append _ _))
      rw [choose_append, List.map_append, List.mem_append]
      by_cases want : wanted c.pair
      · split
        · rename_i taken
          obtain ⟨q, hq, meet⟩ := any_meet.mp taken
          have same : q = c.pair := apart q c.pair (chosen.mp hq).1 want meet
          constructor
          · intro hp
            exact ⟨(chosen.mp hp).1, .inl (chosen.mp hp).2⟩
          · rintro ⟨hp, inside | last⟩
            · exact chosen.mpr ⟨hp, inside⟩
            · rw [List.mem_singleton.mp last]
              exact same ▸ hq
        · rw [List.mem_append, chosen]
          constructor
          · rintro (⟨hp, inside⟩ | last)
            · exact ⟨hp, .inl inside⟩
            · exact ⟨List.mem_singleton.mp last ▸ want, .inr last⟩
          · rintro ⟨hp, inside | last⟩
            · exact .inl ⟨hp, inside⟩
            · exact .inr last
      · obtain ⟨d, hd, wantD, meet⟩ := leads seen c (List.prefix_refl _) want
        have taken : ∃ q ∈ choose seen, Meet q c.pair :=
          ⟨d.pair, chosen.mpr ⟨wantD, List.mem_map.mpr ⟨d, hd, rfl⟩⟩, meet⟩
        rw [if_pos (any_meet.mpr taken), chosen]
        constructor
        · rintro ⟨hp, inside⟩
          exact ⟨hp, .inl inside⟩
        · rintro ⟨hp, inside | last⟩
          · exact ⟨hp, inside⟩
          · exact absurd (List.mem_singleton.mp last ▸ hp) want

/-- When nothing else is chosen than what is wanted, it leads. -/
theorem leads_of_choose (h : ∀ p ∈ choose candidates, wanted p) : Leads wanted candidates := by
  intro before c inside unwanted
  have upTo : choose (before ++ [c]) ⊆ choose candidates := choose_prefix inside
  have seen : choose before ⊆ choose candidates :=
    choose_prefix ((List.prefix_append _ _).trans inside)
  by_cases taken : ∃ p ∈ choose before, Meet p c.pair
  · obtain ⟨p, hp, meet⟩ := taken
    obtain ⟨d, hd, rfl⟩ := (choose_sound before).2 p hp
    exact ⟨d, hd, h _ (seen hp), meet⟩
  · rw [choose_append, if_neg (mt any_meet.mp taken)] at upTo
    exact absurd (h _ (upTo (List.mem_append_right _ List.mem_cons_self))) unwanted

theorem leads_iff (sorted : candidates.Pairwise fun a b => a.le b = true) :
    Leads wanted candidates ↔ ∀ c ∈ candidates, ¬ wanted c.pair →
      ∃ d ∈ candidates, wanted d.pair ∧ d.le c = true ∧ Meet d.pair c.pair := by
  constructor
  · intro leads c hc unwanted
    obtain ⟨before, after, rfl⟩ := List.append_of_mem hc
    obtain ⟨d, hd, want, meet⟩ := leads before c ⟨after, by simp⟩ unwanted
    have earlier := (List.pairwise_append.mp sorted).2.2 d hd c List.mem_cons_self
    exact ⟨d, List.mem_append_left _ hd, want, earlier, meet⟩
  · rintro first before c ⟨after, rfl⟩ unwanted
    obtain ⟨d, hd, want, earlier, meet⟩ := first c (by simp) unwanted
    rw [List.append_assoc, List.mem_append] at hd
    rcases hd with inBefore | inRest
    · exact ⟨d, inBefore, want, meet⟩
    · rcases List.mem_cons.mp inRest with rfl | inAfter
      · exact absurd want unwanted
      · have later := (List.pairwise_append.mp sorted).2.2 c (by simp) d inAfter
        have same : d = c := Candidate.le_antisymm earlier later
        exact absurd (same ▸ want) unwanted

end

/-! ## Candidates of one identity -/

section

variable {old new : List (Symbol × Nat)}

def candidates (old new : List (Symbol × Nat)) : List Candidate :=
  new.flatMap fun (s, n) => old.filterMap fun (t, o) =>
    if 0 < s.span.lineOverlap t.span then some ⟨s.span.lineOverlap t.span, n, o⟩ else none

theorem mem_candidates {c : Candidate} : c ∈ candidates old new ↔
    ∃ s t, (s, c.new) ∈ new ∧ (t, c.old) ∈ old ∧ c.overlap = s.span.lineOverlap t.span ∧
      0 < c.overlap := by
  obtain ⟨v, n, o⟩ := c
  simp only [candidates, List.mem_flatMap, List.mem_filterMap, Option.ite_none_right_eq_some,
    Option.some.injEq, Candidate.mk.injEq, Prod.exists]
  constructor
  · rintro ⟨s, n, hs, t, o, ht, overlap, rfl, rfl, rfl⟩
    exact ⟨s, t, hs, ht, rfl, overlap⟩
  · rintro ⟨s, t, hs, ht, rfl, overlap⟩
    exact ⟨s, n, hs, t, o, ht, overlap, rfl, rfl, rfl⟩

/-- The candidates in the order in which they are taken. -/
def queue (old new : List (Symbol × Nat)) : List Candidate :=
  (candidates old new).mergeSort Candidate.le

theorem mem_queue {c : Candidate} : c ∈ queue old new ↔ c ∈ candidates old new :=
  List.mem_mergeSort

theorem queue_sorted (old new : List (Symbol × Nat)) :
    (queue old new).Pairwise fun a b => a.le b = true :=
  List.pairwise_mergeSort Candidate.le_trans Candidate.le_total _

theorem pairs_eq (old new : List (Symbol × Nat)) : pairs old new = choose (queue old new) ++
    ((new.map (·.2)).filter fun n => !(choose (queue old new)).any (·.1 == n)).zip
      ((old.map (·.2)).filter fun o => !(choose (queue old new)).any (·.2 == o)) := rfl

/-! ## The same symbols in two orders -/

/-- Two numberings of the same symbols. -/
structure Renumbered (old new : List (Symbol × Nat)) : Prop where
  same : (old.map (·.1)).Perm (new.map (·.1))
  distinct : (new.map (·.1)).Nodup
  oldUp : (old.map (·.2)).Pairwise (· < ·)
  newUp : (new.map (·.2)).Pairwise (· < ·)

/-- The two numbers of one symbol. -/
def Twins (old new : List (Symbol × Nat)) (p : Nat × Nat) : Prop :=
  ∃ s, (s, p.1) ∈ new ∧ (s, p.2) ∈ old

/-- Symbols that tie have the same order in both numberings. -/
def TiesKept (old new : List (Symbol × Nat)) : Prop :=
  ∀ a b m n k l, (a, m) ∈ new → (b, n) ∈ new → (a, k) ∈ old → (b, l) ∈ old → m < n →
    a.span.Tied b.span → k < l

namespace Renumbered

variable (r : Renumbered old new) {s t : Symbol} {m n k l : Nat}

include r

theorem new_symbol (hs : (s, n) ∈ new) (ht : (t, n) ∈ new) : s = t :=
  congrArg Prod.fst (List.inj_on_of_nodup_map (r.newUp.imp Nat.ne_of_lt) hs ht rfl)

theorem old_symbol (hs : (s, n) ∈ old) (ht : (t, n) ∈ old) : s = t :=
  congrArg Prod.fst (List.inj_on_of_nodup_map (r.oldUp.imp Nat.ne_of_lt) hs ht rfl)

theorem new_number (hm : (s, m) ∈ new) (hn : (s, n) ∈ new) : m = n :=
  congrArg Prod.snd (List.inj_on_of_nodup_map r.distinct hm hn rfl)

theorem old_number (hm : (s, m) ∈ old) (hn : (s, n) ∈ old) : m = n :=
  congrArg Prod.snd (List.inj_on_of_nodup_map (r.same.nodup_iff.mpr r.distinct) hm hn rfl)

theorem exists_old (h : (s, n) ∈ new) : ∃ o, (s, o) ∈ old := by
  have listed : s ∈ old.map (·.1) := r.same.mem_iff.mpr (List.mem_map.mpr ⟨(s, n), h, rfl⟩)
  obtain ⟨⟨s, o⟩, inside, rfl⟩ := List.mem_map.mp listed
  exact ⟨o, inside⟩

theorem exists_new (h : (s, n) ∈ old) : ∃ o, (s, o) ∈ new := by
  have listed : s ∈ new.map (·.1) := r.same.mem_iff.mp (List.mem_map.mpr ⟨(s, n), h, rfl⟩)
  obtain ⟨⟨s, o⟩, inside, rfl⟩ := List.mem_map.mp listed
  exact ⟨o, inside⟩

theorem twins_apart (p q : Nat × Nat) (hp : Twins old new p) (hq : Twins old new q)
    (meet : Meet p q) : p = q := by
  obtain ⟨m, k⟩ := p
  obtain ⟨n, l⟩ := q
  obtain ⟨s, hm, hk⟩ := hp
  obtain ⟨t, hn, hl⟩ := hq
  have same : s = t := by
    rcases meet with here | there
    · have here : m = n := here
      exact r.new_symbol (here ▸ hm) hn
    · have there : k = l := there
      exact r.old_symbol (there ▸ hk) hl
  subst same
  exact Prod.ext (r.new_number hm hn) (r.old_number hk hl)

/-- Between different symbols, either one overlaps more with itself than with the other or they
    tie. -/
theorem leads_of_kept (kept : TiesKept old new) : Leads (Twins old new) (queue old new) := by
  rw [leads_iff (queue_sorted old new)]
  rintro ⟨v, n, o⟩ inside unwanted
  obtain ⟨a, b, ha, hb, overlap, positive⟩ := mem_candidates.mp (mem_queue.mp inside)
  obtain ⟨k, hk⟩ : ∃ k, (a, k) ∈ old := r.exists_old ha
  obtain ⟨m, hm⟩ : ∃ m, (b, m) ∈ new := r.exists_new hb
  simp only at ha hb overlap positive
  have lessA : v ≤ a.span.lineOverlap a.span := overlap ▸ Syntax.Span.lineOverlap_le_self _ _
  have lessB : v ≤ b.span.lineOverlap b.span := by
    rw [overlap, Syntax.Span.lineOverlap_comm]
    exact Syntax.Span.lineOverlap_le_self _ _
  have ownA : (⟨a.span.lineOverlap a.span, n, k⟩ : Candidate) ∈ queue old new :=
    mem_queue.mpr (mem_candidates.mpr ⟨a, a, ha, hk, rfl, Nat.lt_of_lt_of_le positive lessA⟩)
  have ownB : (⟨b.span.lineOverlap b.span, m, o⟩ : Candidate) ∈ queue old new :=
    mem_queue.mpr (mem_candidates.mpr ⟨b, b, hm, hb, rfl, Nat.lt_of_lt_of_le positive lessB⟩)
  -- the own candidate of `a` or that of `b` comes first
  have first : (v < a.span.lineOverlap a.span ∨ v = a.span.lineOverlap a.span ∧ k ≤ o) ∨
      (v < b.span.lineOverlap b.span ∨ v = b.span.lineOverlap b.span ∧ m ≤ n) := by
    by_cases tied : a.span.Tied b.span
    · obtain ⟨sameA, sameB⟩ := tied
      rcases Nat.lt_or_ge n m with before | behind
      · exact .inl (.inr ⟨overlap.trans sameA.symm,
          Nat.le_of_lt (kept a b n m k o ha hm hk hb before ⟨sameA, sameB⟩)⟩)
      · exact .inr (.inr ⟨overlap.trans sameB.symm, behind⟩)
    · unfold Syntax.Span.Tied at tied
      omega
  rcases first with (more | ⟨equal, less⟩) | (more | ⟨equal, less⟩)
  · exact ⟨_, ownA, ⟨a, ha, hk⟩, Candidate.le_iff.mpr (.inl more), .inl rfl⟩
  · refine ⟨_, ownA, ⟨a, ha, hk⟩, Candidate.le_iff.mpr (.inr ⟨equal.symm, ?_⟩), .inl rfl⟩
    exact .inr ⟨rfl, less⟩
  · exact ⟨_, ownB, ⟨b, hm, hb⟩, Candidate.le_iff.mpr (.inl more), .inr rfl⟩
  · refine ⟨_, ownB, ⟨b, hm, hb⟩, Candidate.le_iff.mpr (.inr ⟨equal.symm, ?_⟩), .inr rfl⟩
    exact (Nat.lt_or_eq_of_le less).imp_right fun here => ⟨here, Nat.le_refl o⟩

/-- Conversely, a candidate of two symbols that tie comes before the own ones if their orders
    differ. -/
theorem kept_of_leads (leads : Leads (Twins old new) (queue old new)) {a b : Symbol}
    (hm : (a, m) ∈ new) (hn : (b, n) ∈ new) (hk : (a, k) ∈ old) (hl : (b, l) ∈ old)
    (before : m < n) (tied : a.span.Tied b.span) (positive : 0 < a.span.lineOverlap b.span) :
    k < l := by
  rw [leads_iff (queue_sorted old new)] at leads
  have different : a ≠ b := by
    rintro rfl
    exact Nat.ne_of_lt before (r.new_number hm hn)
  let c : Candidate := ⟨a.span.lineOverlap b.span, m, l⟩
  have inside : c ∈ queue old new :=
    mem_queue.mpr (mem_candidates.mpr ⟨a, b, hm, hl, rfl, positive⟩)
  have unwanted : ¬ Twins old new c.pair := by
    rintro ⟨s, inNew, inOld⟩
    exact different ((r.new_symbol hm inNew).trans (r.old_symbol inOld hl))
  obtain ⟨d, hd, ⟨s, inNew, inOld⟩, earlier, meet⟩ := leads c inside unwanted
  obtain ⟨s', t', hs', ht', overlap, -⟩ := mem_candidates.mp (mem_queue.mp hd)
  have own : d.overlap = s.span.lineOverlap s.span := by
    rw [overlap, r.new_symbol hs' inNew, r.old_symbol ht' inOld]
  have earlier := Candidate.le_iff.mp earlier
  rcases meet with here | there
  · have here : d.new = m := here
    have same : s = a := r.new_symbol (here ▸ inNew : (s, m) ∈ new) hm
    subst same
    have place : d.old = k := r.old_number inOld hk
    have apart : k ≠ l := fun same => different (r.old_symbol hk (same ▸ hl))
    have sameOverlap : d.overlap = c.overlap := own.trans tied.1
    simp only [c] at earlier sameOverlap
    omega
  · have there : d.old = l := there
    have same : s = b := r.old_symbol (there ▸ inOld : (s, l) ∈ old) hl
    subst same
    have place : d.new = n := r.new_number inNew hn
    have sameOverlap : d.overlap = c.overlap := own.trans tied.2
    simp only [c] at earlier sameOverlap
    omega

/-! ## What is left -/

omit r in
/-- Pairs of two increasing lists have the same order on both sides. -/
theorem zip_up {first second : List Nat} (firstUp : first.Pairwise (· < ·))
    (secondUp : second.Pairwise (· < ·)) (hm : (m, k) ∈ first.zip second)
    (hn : (n, l) ∈ first.zip second) (before : m < n) : k < l := by
  obtain ⟨i, insideI, hi⟩ := List.mem_iff_getElem.mp hm
  obtain ⟨j, insideJ, hj⟩ := List.mem_iff_getElem.mp hn
  simp only [List.getElem_zip, Prod.mk.injEq, List.length_zip, Nat.lt_min] at hi hj insideI insideJ
  obtain ⟨rfl, rfl⟩ := hi
  obtain ⟨rfl, rfl⟩ := hj
  rcases Nat.lt_trichotomy i j with less | same | more
  · exact List.pairwise_iff_getElem.mp secondUp i j insideI.2 insideJ.2 less
  · subst same
    exact absurd before (Nat.lt_irrefl _)
  · have reversed := List.pairwise_iff_getElem.mp firstUp j i insideJ.1 insideI.1 more
    exact absurd before (Nat.lt_asymm reversed)

omit r in
/-- Numberings with the same symbols in the same places number each symbol in one place. -/
theorem mem_zip_of_same {first second : List (Symbol × Nat)}
    (same : second.map (·.1) = first.map (·.1)) (distinct : (second.map (·.1)).Nodup)
    (hn : (s, n) ∈ first) (hk : (s, k) ∈ second) :
    (n, k) ∈ (first.map (·.2)).zip (second.map (·.2)) := by
  induction first generalizing second with
  | nil => cases hn
  | cons head rest ih =>
      cases second with
      | nil => cases hk
      | cons head' rest' =>
          simp only [List.map_cons, List.cons.injEq] at same
          obtain ⟨absent, distinct⟩ : head'.1 ∉ rest'.map (·.1) ∧ (rest'.map (·.1)).Nodup :=
            List.nodup_cons.mp distinct
          rw [List.map_cons, List.map_cons, List.zip_cons_cons]
          have listed {t : Symbol} {o : Nat} (h : (t, o) ∈ rest') : t ∈ rest'.map (·.1) :=
            List.mem_map.mpr ⟨_, h, rfl⟩
          rcases List.mem_cons.mp hn with here | inRest
          · rcases List.mem_cons.mp hk with here' | inRest'
            · rw [← here, ← here']
              exact List.mem_cons_self
            · rw [same.1, ← here] at absent
              exact absurd (listed inRest') absent
          · rcases List.mem_cons.mp hk with here' | inRest'
            · have listed : s ∈ rest.map (·.1) := List.mem_map.mpr ⟨_, inRest, rfl⟩
              rw [← here', same.2] at absent
              exact absurd listed absent
            · exact List.mem_cons_of_mem _ (ih same.2 distinct inRest inRest')

/-- A symbol that overlaps with nothing, as its span is inverted. -/
def isLoose (s : Symbol × Nat) : Bool :=
  s.1.span.lineOverlap s.1.span == 0

theorem chosen_iff (leads : Leads (Twins old new) (queue old new)) {p : Nat × Nat} :
    p ∈ choose (queue old new) ↔
      ∃ s, (s, p.1) ∈ new ∧ (s, p.2) ∈ old ∧ 0 < s.span.lineOverlap s.span := by
  rw [mem_choose_of_leads r.twins_apart leads]
  constructor
  · rintro ⟨⟨s, inNew, inOld⟩, listed⟩
    obtain ⟨c, hc, rfl⟩ := List.mem_map.mp listed
    obtain ⟨s', t', hs', ht', overlap, positive⟩ := mem_candidates.mp (mem_queue.mp hc)
    have first : s' = s := r.new_symbol hs' inNew
    have second : t' = s := r.old_symbol ht' inOld
    subst first second
    exact ⟨_, inNew, inOld, overlap ▸ positive⟩
  · rintro ⟨s, inNew, inOld, positive⟩
    refine ⟨⟨s, inNew, inOld⟩, List.mem_map.mpr ⟨⟨s.span.lineOverlap s.span, p.1, p.2⟩, ?_, rfl⟩⟩
    exact mem_queue.mpr (mem_candidates.mpr ⟨s, s, inNew, inOld, rfl, positive⟩)

omit r in
/-- The numbers of one side that no chosen pair has, when those of the symbols that overlap with
    themselves are chosen. -/
theorem rest_eq {symbols : List (Symbol × Nat)} {chosen : List (Nat × Nat)}
    {side : Nat × Nat → Nat} (taken : ∀ s n, (s, n) ∈ symbols →
      ((∃ p ∈ chosen, side p = n) ↔ 0 < s.span.lineOverlap s.span)) :
    ((symbols.map (·.2)).filter fun n => !chosen.any (side · == n)) =
      (symbols.filter isLoose).map (·.2) := by
  rw [List.filter_map]
  congr 1
  refine List.filter_congr ?_
  rintro ⟨s, n⟩ inside
  have numbered := taken s n inside
  rw [Function.comp_apply, Bool.eq_iff_iff, isLoose, Bool.not_eq_true', List.any_eq_false,
    beq_iff_eq, ← Nat.le_zero, ← Nat.not_lt, ← numbered]
  simp only [beq_iff_eq, not_exists, not_and]

theorem rest_new (leads : Leads (Twins old new) (queue old new)) :
    ((new.map (·.2)).filter fun n => !(choose (queue old new)).any (·.1 == n)) =
      (new.filter isLoose).map (·.2) := by
  refine rest_eq fun s n inside => ?_
  constructor
  · rintro ⟨p, hp, rfl⟩
    obtain ⟨t, inNew, -, positive⟩ := (r.chosen_iff leads).mp hp
    exact r.new_symbol inNew inside ▸ positive
  · intro positive
    obtain ⟨o, ho⟩ := r.exists_old inside
    exact ⟨(n, o), (r.chosen_iff leads).mpr ⟨s, inside, ho, positive⟩, rfl⟩

theorem rest_old (leads : Leads (Twins old new) (queue old new)) :
    ((old.map (·.2)).filter fun o => !(choose (queue old new)).any (·.2 == o)) =
      (old.filter isLoose).map (·.2) := by
  refine rest_eq fun s o inside => ?_
  constructor
  · rintro ⟨p, hp, rfl⟩
    obtain ⟨t, -, inOld, positive⟩ := (r.chosen_iff leads).mp hp
    exact r.old_symbol inOld inside ▸ positive
  · intro positive
    obtain ⟨n, hn⟩ := r.exists_new inside
    exact ⟨(n, o), (r.chosen_iff leads).mpr ⟨s, hn, inside, positive⟩, rfl⟩

/-- Loose symbols tie, so they come in the same order on both sides. -/
theorem loose_same (kept : TiesKept old new) :
    (old.filter isLoose).map (·.1) = (new.filter isLoose).map (·.1) := by
  let earlier (a b : Symbol) : Prop := ∃ m n, (a, m) ∈ new ∧ (b, n) ∈ new ∧ m < n
  have loose {s : Symbol} {n : Nat} {symbols : List (Symbol × Nat)}
      (h : (s, n) ∈ symbols.filter isLoose) : s.span.lineOverlap s.span = 0 :=
    beq_iff_eq.mp (List.mem_filter.mp h).2
  have tied {a b : Symbol} (ha : a.span.lineOverlap a.span = 0)
      (hb : b.span.lineOverlap b.span = 0) : a.span.Tied b.span := by
    have none : a.span.lineOverlap b.span = 0 :=
      Nat.le_zero.mp (ha ▸ Syntax.Span.lineOverlap_le_self _ _)
    exact ⟨ha.trans none.symm, hb.trans none.symm⟩
  have newUp : ((new.filter isLoose).map (·.1)).Pairwise earlier := by
    refine List.pairwise_map.mpr ?_
    have up := (List.pairwise_map.mp r.newUp).filter isLoose
    refine up.imp_of_mem ?_
    rintro ⟨a, m⟩ ⟨b, n⟩ ha hb less
    exact ⟨m, n, List.mem_of_mem_filter ha, List.mem_of_mem_filter hb, less⟩
  have oldUp : ((old.filter isLoose).map (·.1)).Pairwise earlier := by
    refine List.pairwise_map.mpr ?_
    have up := (List.pairwise_map.mp r.oldUp).filter isLoose
    refine up.imp_of_mem ?_
    rintro ⟨a, k⟩ ⟨b, l⟩ ha hb less
    obtain ⟨m, hm⟩ := r.exists_new (List.mem_of_mem_filter ha)
    obtain ⟨n, hn⟩ := r.exists_new (List.mem_of_mem_filter hb)
    refine ⟨m, n, hm, hn, ?_⟩
    rcases Nat.lt_trichotomy m n with before | same | behind
    · exact before
    · subst same
      have same : a = b := r.new_symbol hm hn
      subst same
      have place := r.old_number (List.mem_of_mem_filter ha) (List.mem_of_mem_filter hb)
      exact absurd place (Nat.ne_of_lt less)
    · have reversed : l < k := kept b a n m l k hn hm (List.mem_of_mem_filter hb)
        (List.mem_of_mem_filter ha) behind (tied (loose hb) (loose ha))
      exact absurd reversed (Nat.lt_asymm less)
  have perm : ((old.filter isLoose).map (·.1)).Perm ((new.filter isLoose).map (·.1)) := by
    have ofSymbols (symbols : List (Symbol × Nat)) : (symbols.filter isLoose).map (·.1) =
        (symbols.map (·.1)).filter fun s => s.span.lineOverlap s.span == 0 := by
      rw [List.filter_map]
      rfl
    rw [ofSymbols, ofSymbols]
    exact r.same.filter _
  refine perm.eq_of_pairwise ?_ oldUp newUp
  rintro a b - - ⟨m, n, hm, hn, less⟩ ⟨n', m', hn', hm', greater⟩
  rw [r.new_number hn' hn, r.new_number hm' hm] at greater
  exact absurd greater (Nat.lt_asymm less)

/-- The symbols of two orders are paired with themselves exactly when ties keep their order. -/
theorem pairs_twins_iff :
    (∀ s n o, (s, n) ∈ new → (s, o) ∈ old → (n, o) ∈ pairs old new) ↔ TiesKept old new := by
  constructor
  · intro twins a b m n k l hm hn hk hl before tied
    have known : ∀ p ∈ pairs old new, Twins old new p := by
      rintro ⟨n, o⟩ hp
      obtain ⟨⟨s, n⟩, hs, rfl⟩ := List.mem_map.mp (pairs_known hp).1
      obtain ⟨o', ho⟩ := r.exists_old hs
      have one := (pairs_oneToOne (r.newUp.imp Nat.ne_of_lt) (r.oldUp.imp Nat.ne_of_lt)).new
      have same := List.inj_on_of_nodup_map one hp (twins s n o' hs ho) rfl
      exact ⟨s, hs, same ▸ ho⟩
    have leads : Leads (Twins old new) (queue old new) :=
      leads_of_choose fun p hp => known p (pairs_eq old new ▸ List.mem_append_left _ hp)
    rcases Nat.eq_zero_or_pos (a.span.lineOverlap b.span) with none | positive
    · -- both are loose, and what is left is paired in order
      have left {s : Symbol} {n o : Nat} (hs : (s, n) ∈ new) (ho : (s, o) ∈ old)
          (loose : s.span.lineOverlap s.span = 0) :
          (n, o) ∈ ((new.filter isLoose).map (·.2)).zip ((old.filter isLoose).map (·.2)) := by
        have inside := twins s n o hs ho
        rw [pairs_eq, r.rest_new leads, r.rest_old leads, List.mem_append] at inside
        refine inside.resolve_left fun chosen => ?_
        obtain ⟨t, ht, -, positive⟩ := (r.chosen_iff leads).mp chosen
        rw [r.new_symbol ht hs, loose] at positive
        exact Nat.lt_irrefl 0 positive
      exact zip_up (r.newUp.sublist (List.filter_sublist.map _))
        (r.oldUp.sublist (List.filter_sublist.map _)) (left hm hk (tied.1.trans none))
        (left hn hl (tied.2.trans none)) before
    · exact r.kept_of_leads leads hm hn hk hl before tied positive
  · intro kept s n o hn ho
    have leads := r.leads_of_kept kept
    rw [pairs_eq, List.mem_append]
    rcases Nat.eq_zero_or_pos (s.span.lineOverlap s.span) with loose | positive
    · right
      rw [r.rest_new leads, r.rest_old leads]
      have inNew : (s, n) ∈ new.filter isLoose := List.mem_filter.mpr ⟨hn, beq_iff_eq.mpr loose⟩
      have inOld : (s, o) ∈ old.filter isLoose := List.mem_filter.mpr ⟨ho, beq_iff_eq.mpr loose⟩
      refine mem_zip_of_same (r.loose_same kept) ?_ inNew inOld
      exact (r.same.nodup_iff.mpr r.distinct).sublist (List.filter_sublist.map _)
    · left
      exact (r.chosen_iff leads).mpr ⟨s, hn, ho, positive⟩

end Renumbered

end

end SymbolDiff

end CodeSearch
