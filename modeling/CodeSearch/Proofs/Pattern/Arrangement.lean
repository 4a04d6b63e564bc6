import CodeSearch.Pattern.Detector
import CodeSearch.Proofs.Sorting
import Mathlib.Data.String.Basic

/-! # Members in another order

A subject whose members and bases come in another order is the same to every rule but one. That one
looks at the first method only whose name speaks of building. So all scores, and with them all
matches, are the same in every order exactly when the methods that are named so agree on whether
they make something.
-/

namespace CodeSearch

open Pattern

namespace Subject

/-- The same subject, with its members and its bases in another order. -/
structure Rearranges (s t : Subject) : Prop where
  symbol : t.symbol = s.symbol
  members : t.members.Perm s.members
  bases : t.bases.Perm s.bases

/-! ## What is seen of a subject -/

section

variable {s t : Subject}

theorem Rearranges.name (h : s.Rearranges t) : t.name = s.name := by
  rw [Subject.name, h.symbol, Subject.name]

theorem Rearranges.methods (h : s.Rearranges t) : t.methods.Perm s.methods :=
  h.members.filter _

theorem Rearranges.methodShapes (h : s.Rearranges t) : t.methodShapes.Perm s.methodShapes :=
  h.methods.filterMap _

theorem Rearranges.shapes (h : s.Rearranges t) : t.shapes.Perm s.shapes := by
  unfold Subject.shapes
  rw [h.symbol]
  exact (h.methods.filterMap _).append_left _

theorem Rearranges.nodes (h : s.Rearranges t) : t.nodes.Perm s.nodes :=
  h.shapes.flatMap_right _

theorem Rearranges.fields (h : s.Rearranges t) : t.fields.Perm s.fields :=
  ((h.members.filter _).map _).append ((h.nodes.filter _).filterMap _)

theorem Rearranges.staticFields (h : s.Rearranges t) : t.staticFields.Perm s.staticFields :=
  (h.nodes.filter _).filterMap _

theorem Rearranges.anyMethod (h : s.Rearranges t) (p : Symbol → Bool) :
    t.methods.any p = s.methods.any p :=
  h.methods.any_eq

theorem Rearranges.anyMethodShape (h : s.Rearranges t) (p : String × Shape → Bool) :
    t.methodShapes.any p = s.methodShapes.any p :=
  h.methodShapes.any_eq

theorem Rearranges.anyShape (h : s.Rearranges t) (p : Shape → Bool) :
    t.shapes.any p = s.shapes.any p :=
  h.shapes.any_eq

theorem Rearranges.hasField (h : s.Rearranges t) (words : List String) :
    t.hasField words = s.hasField words :=
  h.fields.any_eq

theorem Rearranges.hasMethod (h : s.Rearranges t) (names : List String) :
    Pattern.hasMethod t names = Pattern.hasMethod s names :=
  h.anyMethod _

/-- Some method is found by its name in both, though maybe not the same one. -/
theorem Rearranges.methodNamed_isSome (h : s.Rearranges t) (words : List String) :
    (t.methodNamed? words).isSome = (s.methodNamed? words).isSome := by
  rw [methodNamed?, methodNamed?, List.isSome_find?, List.isSome_find?]
  exact h.anyMethodShape _

end

end Subject

namespace Pattern

open Subject

/-! ## Rules and scores -/

section

variable {s t : Subject} {p : Pattern}

theorem severalProducts_rearranged (h : s.Rearranges t) :
    severalProducts t = severalProducts s := by
  have products : ((t.shapes.flatMap constructed).filter fun type =>
      type != s.symbol.name && type != "Self").eraseDups.Perm
      ((s.shapes.flatMap constructed).filter fun type =>
        type != s.symbol.name && type != "Self").eraseDups := by
    refine (List.perm_ext_iff_of_nodup (nodup_eraseDups _)
      (nodup_eraseDups _)).mpr fun type => ?_
    rw [List.mem_eraseDups, List.mem_eraseDups]
    exact ((h.shapes.flatMap_right _).filter _).mem_iff
  simp only [severalProducts, h.symbol, products.length_eq]

theorem visitMethods_rearranged (h : s.Rearranges t) : visitMethods t = visitMethods s := by
  simp only [visitMethods, h.methods.countP_eq]

theorem fluentSetters_rearranged (h : s.Rearranges t) : fluentSetters t = fluentSetters s := by
  simp only [fluentSetters, h.methodShapes.countP_eq]

theorem factoryFit_rearranged (h : s.Rearranges t) :
    ∀ rule ∈ factoryRules, rule.fit t = rule.fit s := by
  simp [factoryRules, factoryName, returnsNewObject, severalProducts_rearranged h, h.name,
    h.anyMethod, h.anyShape]

/-- The rules for types, those of one pattern apart, look at all members alike. -/
theorem typeFit_rearranged (h : s.Rearranges t) (other : p ≠ .builder) :
    ∀ rule ∈ p.typeRules, rule.fit t = rule.fit s := by
  have base (q : String → Bool) : t.bases.any q = s.bases.any q := h.bases.any_eq
  have noBase : t.bases.isEmpty = s.bases.isEmpty := h.bases.isEmpty_eq
  cases p with
  | builder => exact absurd rfl other
  | factory => exact factoryFit_rearranged h
  | singleton =>
      simp [typeRules, singletonRules, hasStaticInstance, hasInstanceAccessor, constructsItself,
        h.symbol, h.hasMethod, h.anyShape, h.staticFields.any_eq]
  | observer =>
      simp [typeRules, observerRules, observerField, subscribeMethod, notifyMethod, notifiesInLoop,
        h.hasField, h.methodNamed_isSome, h.anyMethodShape]
  | strategy =>
      simp [typeRules, strategyRules, strategyField, delegatesToField, strategySetter, h.hasField,
        h.anyMethodShape]
  | decorator =>
      simp [typeRules, decoratorTypeRules, componentField, hasBase, forwardsSameOperation,
        decoratorName, noBase, h.hasField, h.name, h.anyMethodShape]
  | adapter =>
      simp [typeRules, adapterRules, adapteeField, hasBase, translatesCalls, adapterName, noBase,
        h.hasField, h.name, h.anyMethodShape]
  | iterator =>
      simp [typeRules, iteratorRules, nextMethod, iterable, cursorField, nextBranches, base,
        h.hasField, h.hasMethod, h.anyMethodShape]
  | visitor =>
      simp [typeRules, visitorRules, visitorName, acceptDispatches, passesItself,
        visitMethods_rearranged h, h.name, h.anyMethodShape]
  | command =>
      simp [typeRules, commandRules, executeMethod, undoMethod, commandName, executeUsesReceiver,
        h.name, h.hasMethod, h.anyMethodShape]

theorem functionFit_rearranged (h : s.Rearranges t) :
    ∀ rule ∈ p.functionRules, rule.fit t = rule.fit s := by
  cases p with
  | factory => exact factoryFit_rearranged h
  | decorator =>
      simp [functionRules, decoratorFunctionRules, definesInnerFunction, returnsInnerFunction,
        callsWrappedParameter, h.symbol]
  | singleton | builder | observer | strategy | adapter | iterator | visitor | command =>
      exact List.forall_mem_nil _

theorem score?_congr (same : t.symbol.kind = s.symbol.kind)
    (fits : ∀ rule ∈ p.rules s.symbol.kind, rule.fit t = rule.fit s) : p.score? t = p.score? s := by
  unfold score?
  rw [same]
  split
  · rfl
  · rw [List.map_congr_left fun rule inside => by rw [fits rule inside]]

theorem score?_rearranged (h : s.Rearranges t) (other : p ≠ .builder) :
    p.score? t = p.score? s := by
  refine score?_congr (congrArg Symbol.kind h.symbol) ?_
  cases s.symbol.kind with
  | type => exact typeFit_rearranged h other
  | function => exact functionFit_rearranged h
  | importing | call | var => exact List.forall_mem_nil _

end

/-! ## The first method that builds -/

/-- The score of a builder by how well its three rules fit. -/
def builderScore (setters build naming : Score) : Score :=
  Score.clamp (Score.sum [0.45 * Score.clamp setters 0 1, 0.35 * Score.clamp build 0 1,
    0.2 * Score.clamp naming 0 1]) 0 1

theorem builder_score? {s : Subject} (kind : s.symbol.kind = .type) :
    Pattern.builder.score? s =
      some (builderScore (fluentSetters s) (buildMethod s) (builderName s)) := by
  simp only [score?, kind, rules, typeRules, builderRules, builderScore, List.map_cons,
    List.map_nil]

theorem builder_score?_none {s : Subject} (kind : s.symbol.kind ≠ .type) :
    Pattern.builder.score? s = none := by
  unfold score?
  cases known : s.symbol.kind with
  | type => exact absurd known kind
  | function | importing | call | var => rfl

/-- Whatever else fits, the score tells whether building does. -/
theorem builderScore_inj (s : Subject) (naming : Bool) {a b : Bool}
    (same : builderScore (fluentSetters s) (fitIf a) (fitIf naming) =
      builderScore (fluentSetters s) (fitIf b) (fitIf naming)) : a = b := by
  have apart : builderScore (fluentSetters s) (fitIf true) (fitIf naming) ≠
      builderScore (fluentSetters s) (fitIf false) (fitIf naming) := by
    unfold fluentSetters
    split <;> cases naming <;> decide +kernel
  cases a <;> cases b
  · rfl
  · exact absurd same.symm apart
  · exact absurd same apart
  · rfl

end Pattern

namespace Subject

/-- The methods with a shape whose names speak of building. -/
def builds (s : Subject) : List (String × Shape) :=
  s.methodShapes.filter fun (name, _) => holdsAny (bareLetters name) buildWords

/-- Whether the shape of a method makes something. -/
def makes (method : String × Shape) : Bool :=
  !(constructed method.2).isEmpty

/-- Of the methods whose names speak of building, either all make something or none does. -/
def BuildsAlike (s : Subject) : Prop :=
  ∀ a ∈ s.builds, ∀ b ∈ s.builds, makes a = makes b

variable {s t : Subject}

theorem Rearranges.builds (h : s.Rearranges t) : t.builds.Perm s.builds :=
  h.methodShapes.filter _

theorem buildMethod_eq (s : Subject) : buildMethod s = fitIf (s.builds.head?.any makes) := by
  rw [builds, List.head?_filter]
  rfl

theorem BuildsAlike.buildMethod (alike : s.BuildsAlike) (h : s.Rearranges t) :
    buildMethod t = buildMethod s := by
  have known {a : String × Shape} (first : t.builds.head? = some a) : a ∈ s.builds :=
    h.builds.mem_iff.mp (List.mem_of_head? first)
  rw [buildMethod_eq, buildMethod_eq]
  cases firstHere : t.builds.head? with
  | none =>
      have empty := h.builds.symm
      rw [List.head?_eq_none_iff.mp firstHere] at empty
      rw [empty.eq_nil]
      rfl
  | some a =>
      cases firstThere : s.builds.head? with
      | none =>
          have inside := known firstHere
          rw [List.head?_eq_none_iff.mp firstThere] at inside
          cases inside
      | some b =>
          simp only [Option.any_some, alike a (known firstHere) b (List.mem_of_head? firstThere)]

/-- Each of the methods whose names speak of building may come first. -/
theorem exists_building_first {a : String × Shape} (inside : a ∈ s.builds) :
    ∃ t, s.Rearranges t ∧ buildMethod t = fitIf (makes a) := by
  obtain ⟨listed, named⟩ := List.mem_filter.mp inside
  obtain ⟨m, method, shaped⟩ := List.mem_filterMap.mp listed
  obtain ⟨front, back, parts⟩ := List.append_of_mem (List.mem_of_mem_filter method)
  refine ⟨{ s with members := m :: (front ++ back) }, ⟨rfl, ?_, .refl _⟩, ?_⟩
  · rw [parts]
    exact List.perm_middle.symm
  · have first : (builds { s with members := m :: (front ++ back) }).head? = some a := by
      have isMethod : (m.kind == .function) = true := (List.mem_filter.mp method).2
      simp only [builds, methodShapes, methods, List.filter_cons, isMethod, if_true,
        List.filterMap_cons, shaped, named, List.head?_cons]
    rw [buildMethod_eq, first, Option.any_some]

end Subject

namespace Detector

open Subject

variable {s t : Subject}

/-! ## All scores -/

theorem mem_scores {p : Pattern} {x : Score} : (p, x) ∈ scores s ↔ p.score? s = some x := by
  have listed : p ∈ Pattern.all := by cases p <;> decide
  simp only [scores, List.mem_filterMap, Option.map_eq_some_iff, Prod.mk.injEq]
  constructor
  · rintro ⟨q, -, x, score, rfl, rfl⟩
    exact score
  · intro score
    exact ⟨p, listed, x, score, rfl, rfl⟩

theorem score?_of_scores (same : scores t = scores s) (p : Pattern) : p.score? t = p.score? s := by
  refine Option.ext fun x => ?_
  rw [← mem_scores, same, mem_scores]

theorem scores_of_score? (same : ∀ p : Pattern, p.score? t = p.score? s) : scores t = scores s := by
  simp only [scores, same]

/-- The scores are the same in every order exactly when the order of the methods that are named for
    building does not matter. -/
theorem scores_rearranged_iff : (∀ t, s.Rearranges t → scores t = scores s) ↔
    (s.symbol.kind = .type → s.BuildsAlike) := by
  constructor
  · intro steady kind a ha b hb
    by_contra differ
    obtain ⟨t, ht, builtFirst⟩ := exists_building_first ha
    obtain ⟨u, hu, builtLast⟩ := exists_building_first hb
    have score {v : Subject} (hv : s.Rearranges v) : Pattern.builder.score? v =
        some (builderScore (fluentSetters s) (buildMethod v) (builderName s)) := by
      have kindToo : v.symbol.kind = .type := (congrArg Symbol.kind hv.symbol).trans kind
      rw [builder_score? kindToo, fluentSetters_rearranged hv, builderName, hv.name, builderName]
    have same := score?_of_scores ((steady t ht).trans (steady u hu).symm) .builder
    rw [score ht, score hu, builtFirst, builtLast, Option.some.injEq] at same
    exact differ (builderScore_inj s _ same)
  · intro alike t h
    refine scores_of_score? fun p => ?_
    by_cases other : p = .builder
    · subst other
      by_cases kind : s.symbol.kind = .type
      · have kindToo : t.symbol.kind = .type := (congrArg Symbol.kind h.symbol).trans kind
        rw [builder_score? kindToo, builder_score? kind, fluentSetters_rearranged h,
          (alike kind).buildMethod h, builderName, h.name, builderName]
      · have kindToo : t.symbol.kind ≠ .type := (congrArg Symbol.kind h.symbol).symm ▸ kind
        rw [builder_score?_none kindToo, builder_score?_none kind]
    · exact score?_rearranged h other

/-! ## Matches -/

theorem matchLe_iff {a b : PatternMatch} : matchLe a b = true ↔
    b.confidence.rank < a.confidence.rank ∨
      a.confidence.rank = b.confidence.rank ∧ a.pattern.rank ≤ b.pattern.rank := by
  unfold matchLe
  split
  · rename_i same
    simp [same]
  · rename_i different
    simp [different]

theorem matchLe_total (a b : PatternMatch) : (matchLe a b || matchLe b a) = true := by
  rw [Bool.or_eq_true, matchLe_iff, matchLe_iff]
  omega

theorem matchLe_trans (a b c : PatternMatch) (first : matchLe a b = true)
    (second : matchLe b c = true) : matchLe a c = true := by
  rw [matchLe_iff] at first second ⊢
  omega

/-- The methods that take part are listed by their ids, in whatever order they come. -/
theorem participants_rearranged (h : s.Rearranges t) : participants t = participants s := by
  have total (a b : SymbolId) : (!decide (b < a) || !decide (a < b)) = true := by
    rw [Bool.or_eq_true, Bool.not_eq_true', Bool.not_eq_true', decide_eq_false_iff_not,
      decide_eq_false_iff_not, not_lt, not_lt]
    exact le_total a b
  have trans (a b c : SymbolId) (first : (!decide (b < a)) = true)
      (second : (!decide (c < b)) = true) : (!decide (c < a)) = true := by
    simp only [Bool.not_eq_true', decide_eq_false_iff_not, not_lt] at first second ⊢
    exact first.trans second
  have sorted : (t.methods.map (·.id)).mergeSort (fun a b => !(b < a)) =
      (s.methods.map (·.id)).mergeSort fun a b => !(b < a) := by
    refine mergeSort_eq_of_perm trans total (h.methods.map _) fun a _ b _ first second => ?_
    simp only [Bool.not_eq_true', decide_eq_false_iff_not, not_lt] at first second
    exact le_antisymm first second
  rw [participants, participants, h.symbol, sorted]

theorem detect_congr (d : Detector) (same : scores t = scores s)
    (parts : participants t = participants s) : d.detect t = d.detect s := by
  simp only [detect, same, parts]

theorem filter_scores (s : Subject) (wanted : Pattern → Bool) :
    (scores s).filter (fun e => wanted e.1) =
      (Pattern.all.filter wanted).filterMap fun p => (p.score? s).map (p, ·) := by
  rw [scores, List.filter_filterMap, List.filterMap_filter]
  refine List.filterMap_congr fun p _ => ?_
  cases p.score? s with
  | none => cases wanted p <;> rfl
  | some x => cases keep : wanted p <;> simp [keep]

/-- The matches of some patterns depend on the scores of these alone. -/
theorem filter_detect (d : Detector) (wanted : Pattern → Bool)
    (same : ∀ p, wanted p = true → p.score? t = p.score? s)
    (parts : participants t = participants s) :
    (d.detect t).filter (fun m => wanted m.pattern) =
      (d.detect s).filter (fun m => wanted m.pattern) := by
  have scored : (scores t).filter (fun e => wanted e.1) =
      (scores s).filter fun e => wanted e.1 := by
    rw [filter_scores, filter_scores]
    refine List.filterMap_congr fun p inside => ?_
    rw [same p (List.of_mem_filter inside)]
  have reached (u : Subject) : (d.detect u).filter (fun m => wanted m.pattern) =
      ((((scores u).filter fun e => wanted e.1).filter fun e => d.threshold ≤ e.2).map fun e =>
        { pattern := e.1, symbols := participants u, confidence := e.2 }).mergeSort matchLe := by
    rw [detect, filter_mergeSort matchLe_trans matchLe_total, List.filter_map, List.filter_filter,
      List.filter_filter]
    congr 3
    funext e
    exact Bool.and_comm ..
  rw [reached, reached, scored, parts]

/-- Whatever the order of members and bases, all patterns but one have the same scores and matches.
    All scores and all matches are the same in every order exactly when the methods of a type that
    are named for building agree on whether they make something. -/
theorem detection_rearranged (s : Subject) :
    (∀ t, s.Rearranges t → (∀ p : Pattern, p ≠ .builder → p.score? t = p.score? s) ∧
      ∀ d : Detector, (d.detect t).filter (fun m => m.pattern ≠ .builder) =
        (d.detect s).filter fun m => m.pattern ≠ .builder) ∧
    ((∀ t, s.Rearranges t → scores t = scores s ∧ ∀ d : Detector, d.detect t = d.detect s) ↔
      (s.symbol.kind = .type → s.BuildsAlike)) := by
  refine ⟨fun t h => ⟨fun p other => score?_rearranged h other, fun d => ?_⟩, ?_⟩
  · exact d.filter_detect (fun p => p ≠ .builder)
      (fun p wanted => score?_rearranged h (of_decide_eq_true wanted)) (participants_rearranged h)
  · rw [← scores_rearranged_iff]
    refine ⟨fun steady t h => (steady t h).1, fun steady t h => ⟨steady t h, fun d => ?_⟩⟩
    exact d.detect_congr (steady t h) (participants_rearranged h)

/-- A class with two methods that are named for building. -/
def queryBuilder (first second : Symbol) : Subject :=
  { symbol := { (default : Symbol) with id := "c", name := "QueryBuilder", kind := .type }
    members := [first, second]
    bases := [] }

/-- A method with some nodes below it. -/
def methodOf (id name : String) (body : List ShapeNode) : Symbol :=
  { (default : Symbol) with
    id, name, kind := .function
    shape := some { nodes := { kind := .function, depth := 0 } :: body } }

def buildsQuery : Symbol :=
  methodOf "m2" "build" [{ kind := .construct, depth := 1, label := some "Query" }]

def buildsPlan : Symbol :=
  methodOf "m3" "build_plan" [{ kind := .construct, depth := 1, label := some "Plan" }]

def rebuildsCache : Symbol :=
  methodOf "m1" "rebuild_cache" []

/-- Two methods that both make something may stand in either order. -/
theorem queryBuilder_rearranged : (queryBuilder buildsQuery buildsPlan).BuildsAlike ∧
    ∀ t, (queryBuilder buildsQuery buildsPlan).Rearranges t →
      scores t = scores (queryBuilder buildsQuery buildsPlan) ∧
        ∀ d : Detector, d.detect t = d.detect (queryBuilder buildsQuery buildsPlan) := by
  have alike : (queryBuilder buildsQuery buildsPlan).BuildsAlike := by
    unfold BuildsAlike
    decide +kernel
  exact ⟨alike, (detection_rearranged _).2.mpr fun _ => alike⟩

/-- A method that makes nothing hides the one behind it that does. -/
theorem building_order_counts :
    (queryBuilder buildsQuery rebuildsCache).Rearranges (queryBuilder rebuildsCache buildsQuery) ∧
      scores (queryBuilder rebuildsCache buildsQuery) ≠
        scores (queryBuilder buildsQuery rebuildsCache) ∧
      (detect ⟨defaultThreshold⟩ (queryBuilder buildsQuery rebuildsCache)).map (·.pattern) =
        [.builder] ∧
      (detect ⟨defaultThreshold⟩ (queryBuilder rebuildsCache buildsQuery)).map (·.pattern) =
        [] := by
  refine ⟨⟨rfl, .swap .., .refl _⟩, ?_, ?_, ?_⟩
  · decide +kernel
  · decide +kernel
  · decide +kernel

end Detector

end CodeSearch
